/-
The turns of a narrative.

The records of a narrative are read in the order of their numbers.  A request opens a turn, the first
record opens one when there is none, and every other record belongs to the turn that was opened last.
Context that names its request belongs to the turn of that request; before the request is read it waits.

Main results:

* `scanRecord_cases` — a record waits, joins a turn or opens one;
* `Inv.step`, `Inv.scan` — what holds while the records are read.
-/

import Wardian.Archive.Narrative
import Wardian.Lib.Groups

set_option autoImplicit false

namespace Wardian.Archive

open List
open ProviderLog (AgentChatEvent)

abbrev Record := ConversationNarrativeRecord

/-! ### Turns -/

structure ConversationSourceRecord where
  schema : Nat
  sourceId : String
  provider : String
  providerSessionId : Option String
  sourceKind : String
  sourcePath : Option String
  cursor : Option String
  offset : Option Nat
  rowId : Option String
  providerEventType : Option String
  hash : Option String
  artifactRef : Option String

structure TurnAccumulator where
  records : List Record
  events : List AgentChatEvent
  sources : List ConversationSourceRecord

def TurnAccumulator.empty : TurnAccumulator := ⟨[], [], []⟩

/-- Of the observations with one name the last one is found. -/
def eventById (events : List AgentChatEvent) (eventId : String) : Option AgentChatEvent :=
  events.reverse.find? (·.id = eventId)

def sourceById (sources : List ConversationSourceRecord) (sourceId : String) :
    Option ConversationSourceRecord :=
  sources.reverse.find? (·.sourceId = sourceId)

def recordEvents (events : List AgentChatEvent) (record : Record) : List AgentChatEvent :=
  record.eventRefs.filterMap (eventById events)

def appendRecordToTurn (events : List AgentChatEvent) (sources : List ConversationSourceRecord)
    (turn : TurnAccumulator) (record : Record) : TurnAccumulator where
  events := turn.events ++ recordEvents events record
  sources := turn.sources ++ record.sourceRefs.filterMap (sourceById sources)
  records := turn.records ++ [record]

def hasExplicitContextRoot (record : Record) (events : List AgentChatEvent) : Bool :=
  record.requestRootId.isSome ||
    events.any fun event => (metadataText event.metadata "request_root_id").isSome

/-! ### Reading the records -/

structure Scan where
  turns : List TurnAccumulator
  turnsByRequestRoot : Table Nat
  pendingRootedContexts : List (String × List Record)
  currentTurn : Option Nat

def Scan.empty : Scan := ⟨[], ∅, [], none⟩

/-- A new turn, which becomes the current one. -/
def Scan.openTurn (s : Scan) : Nat × Scan :=
  (s.turns.length,
    { s with turns := s.turns ++ [TurnAccumulator.empty], currentTurn := some s.turns.length })

/-- The turn of a record. -/
def Scan.turnFor (s : Scan) (contextTurn : Option Nat) (starts : Bool) : Nat × Scan :=
  match contextTurn with
  | some index => (index, s)
  | none =>
    match s.currentTurn with
    | some index => if starts then s.openTurn else (index, s)
    | none => s.openTurn

def Scan.appendTo (s : Scan) (events : List AgentChatEvent) (sources : List ConversationSourceRecord)
    (index : Nat) (records : List Record) : Scan :=
  { s with
    turns := s.turns.modify index fun turn => records.foldl (appendRecordToTurn events sources) turn }

/-- A request becomes known, and the context that waits for it joins its turn. -/
def Scan.root (s : Scan) (events : List AgentChatEvent) (sources : List ConversationSourceRecord)
    (index : Nat) (requestRootId : Option String) : Scan :=
  match requestRootId with
  | none => s
  | some requestRootId =>
    { s with
      turnsByRequestRoot := s.turnsByRequestRoot.insert requestRootId index
      pendingRootedContexts := Groups.without requestRootId s.pendingRootedContexts }.appendTo
        events sources index (Groups.found requestRootId s.pendingRootedContexts)

/-- A record is put into its turn. -/
def Scan.place (s : Scan) (events : List AgentChatEvent) (sources : List ConversationSourceRecord)
    (record : Record) (contextTurn : Option Nat) : Scan :=
  let found := recordEvents events record
  let startsRequestTurn := isRequestRecord record found
  let startsLifecycleTurn := decide (record.kind = .lifecycle) && s.currentTurn.isNone
  let placed := s.turnFor contextTurn (startsRequestTurn || startsLifecycleTurn)
  let rooted := if startsRequestTurn then
      placed.2.root events sources placed.1 (requestRootIdForRecord record found)
    else placed.2
  rooted.appendTo events sources placed.1 [record]

def scanRecord (events : List AgentChatEvent) (sources : List ConversationSourceRecord) (s : Scan)
    (record : Record) : Scan :=
  let found := recordEvents events record
  let isContext := decide (inputOriginForRecord record found = some .contextInjection)
  let contextRootId := if isContext then requestRootIdForRecord record found else none
  let contextTurn := contextRootId.bind fun requestRootId => s.turnsByRequestRoot[requestRootId]?
  let waits := isContext && hasExplicitContextRoot record found && contextTurn.isNone &&
    !isRequestRecord record found
  match (if waits then contextRootId else none) with
  | some requestRootId =>
    { s with
      pendingRootedContexts := Groups.push requestRootId record s.pendingRootedContexts }
  | none => s.place events sources record contextTurn

/-! ### The turns of a narrative -/

structure ConversationTurnRecord where
  conversationId : String
  turnIndex : Nat
  seqStart : Nat
  seqEnd : Nat
  recordCount : Nat
  isOpen : Bool
  turn : TurnAccumulator

def turnRecordFromAccumulator (conversationId : String) (turnIndex : Nat) (turn : TurnAccumulator)
    (isOpen : Bool) : ConversationTurnRecord where
  conversationId := conversationId
  turnIndex := turnIndex
  seqStart := (turn.records.map (·.seq)).min?.getD 0
  seqEnd := (turn.records.map (·.seq)).max?.getD ((turn.records.map (·.seq)).min?.getD 0)
  recordCount := turn.records.length
  isOpen := isOpen
  turn := turn

def TurnAccumulator.firstSeq (turn : TurnAccumulator) : Nat :=
  (turn.records.head?.map (·.seq)).getD 0

/-- The order in which a hash map goes through its entries. -/
structure MapOrder where
  order : List (String × List Record) → List (String × List Record)
  perm : ∀ entries, (order entries).Perm entries

def sortRecords (records : List Record) : List Record :=
  records.mergeSort fun left right => left.seq ≤ right.seq

/-- The turns before they are ordered; context that waits in vain makes turns of its own. -/
def collectTurns (order : MapOrder) (records : List Record) (events : List AgentChatEvent)
    (sources : List ConversationSourceRecord) : List TurnAccumulator :=
  let s := (sortRecords records).foldl (scanRecord events sources) Scan.empty
  s.turns ++ (order.order s.pendingRootedContexts).map fun entry =>
    entry.2.foldl (appendRecordToTurn events sources) TurnAccumulator.empty

def deriveTurnRecordsWithContext (order : MapOrder) (conversationId : String) (records : List Record)
    (events : List AgentChatEvent) (sources : List ConversationSourceRecord) (isOpen : Bool) :
    List ConversationTurnRecord :=
  let turns := (collectTurns order records events sources).mergeSort
    fun left right => left.firstSeq ≤ right.firstSeq
  turns.mapIdx fun index turn =>
    turnRecordFromAccumulator conversationId (index + 1) turn (isOpen && index + 1 == turns.length)

/-! ### What a record says of itself -/

section Facts

variable (events : List AgentChatEvent) (record : Record)

def IsRequest : Prop := isRequestRecord record (recordEvents events record) = true

def IsContext : Prop :=
  inputOriginForRecord record (recordEvents events record) = some .contextInjection

/-- The request by which the record is known. -/
def rootOf : Option String := requestRootIdForRecord record (recordEvents events record)

/-- The request that the record names. -/
def explicitRoot : Option String :=
  record.requestRootId.or ((recordEvents events record).findSome? fun event =>
    metadataText event.metadata "request_root_id")

/-- Context that names its request. -/
def NamesRequest : Prop := IsContext events record ∧ (explicitRoot events record).isSome = true

instance : Decidable (IsRequest events record) := inferInstanceAs (Decidable (_ = true))

instance : Decidable (IsContext events record) := inferInstanceAs (Decidable (_ = some _))

instance : Decidable (NamesRequest events record) := inferInstanceAs (Decidable (_ ∧ _))

variable {events record}

theorem not_context_of_request (h : IsRequest events record) : ¬IsContext events record := by
  unfold IsRequest isRequestRecord at h
  unfold IsContext
  intro hctx
  rw [hctx, Bool.and_eq_true] at h
  exact Bool.false_ne_true h.2

theorem hasExplicitContextRoot_eq :
    hasExplicitContextRoot record (recordEvents events record) = (explicitRoot events record).isSome := by
  unfold hasExplicitContextRoot explicitRoot
  rw [Option.isSome_or, isSome_findSome?]

theorem rootOf_isSome (h : (explicitRoot events record).isSome = true) :
    ∃ requestRootId, rootOf events record = some requestRootId := by
  refine Option.isSome_iff_exists.1 ?_
  unfold explicitRoot at h
  unfold rootOf requestRootIdForRecord
  rw [Option.isSome_or, Bool.or_eq_true] at h ⊢
  refine h.imp_right fun hevs => ?_
  rw [isSome_findSome?, any_eq_true] at hevs ⊢
  obtain ⟨event, hevent, hsome⟩ := hevs
  refine ⟨event, hevent, ?_⟩
  rw [Option.isSome_or, hsome]
  rfl

end Facts

/-! ### What one record does -/

/-- The records of the turns. -/
def Scan.groups (s : Scan) : List (List Record) := s.turns.map (·.records)

section Step

variable {events : List AgentChatEvent} {sources : List ConversationSourceRecord} {s : Scan}
  {record : Record}

theorem records_foldl (records : List Record) (turn : TurnAccumulator) :
    (records.foldl (appendRecordToTurn events sources) turn).records = turn.records ++ records := by
  induction records generalizing turn with
  | nil => exact (append_nil _).symm
  | cons record records ih =>
    rw [foldl_cons, ih]
    change turn.records ++ [record] ++ records = _
    rw [append_assoc]
    rfl

theorem groups_appendTo (index : Nat) (records : List Record) :
    (s.appendTo events sources index records).groups = s.groups.modify index (· ++ records) := by
  unfold Scan.groups Scan.appendTo
  exact Groups.map_modify (records_foldl records) s.turns index

/-- The context that waits for a request. -/
def Scan.waiting (s : Scan) (events : List AgentChatEvent) (record : Record) : List Record :=
  if IsRequest events record then
    ((rootOf events record).map (Groups.found · s.pendingRootedContexts)).getD []
  else []

/-- The context that goes on waiting. -/
def Scan.remaining (s : Scan) (events : List AgentChatEvent) (record : Record) :
    List (String × List Record) :=
  if IsRequest events record then
    ((rootOf events record).map (Groups.without · s.pendingRootedContexts)).getD s.pendingRootedContexts
  else s.pendingRootedContexts

/-- A record waits for the request that it names. -/
structure Waits (events : List AgentChatEvent) (s s' : Scan) (record : Record) (root : String) :
    Prop where
  names : NamesRequest events record
  known : rootOf events record = some root
  unknown : s.turnsByRequestRoot[root]? = none
  result : s' = { s with pendingRootedContexts := Groups.push root record s.pendingRootedContexts }

/-- A record joins a turn. -/
structure Joins (s s' : Scan) (record : Record) (index : Nat) : Prop where
  groups : s'.groups = s.groups.modify index (· ++ [record])
  roots : s'.turnsByRequestRoot = s.turnsByRequestRoot
  pending : s'.pendingRootedContexts = s.pendingRootedContexts
  current : s'.currentTurn = s.currentTurn

/-- A record opens a turn. -/
structure Opens (events : List AgentChatEvent) (s s' : Scan) (record : Record) : Prop where
  groups : s'.groups = s.groups ++ [s.waiting events record ++ [record]]
  roots : ∀ root, s'.turnsByRequestRoot[root]? =
    if IsRequest events record ∧ rootOf events record = some root then some s.groups.length
    else s.turnsByRequestRoot[root]?
  pending : s'.pendingRootedContexts = s.remaining events record
  current : s'.currentTurn = some s.groups.length

/-- Context that is known by a request that was read. -/
def Attached (events : List AgentChatEvent) (s : Scan) (record : Record) (index : Nat) : Prop :=
  IsContext events record ∧ ∃ root, rootOf events record = some root ∧
    s.turnsByRequestRoot[root]? = some index

theorem joins_appendTo (index : Nat) : Joins s (s.appendTo events sources index [record]) record index :=
  ⟨groups_appendTo index [record], rfl, rfl, rfl⟩

theorem groups_openTurn : s.openTurn.2.groups = s.groups ++ [[]] := by
  unfold Scan.groups Scan.openTurn
  rw [map_append]
  rfl

theorem length_groups : s.groups.length = s.turns.length := length_map _

/-- What a record does that opens a turn. -/
def Scan.opened (s : Scan) (events : List AgentChatEvent) (sources : List ConversationSourceRecord)
    (record : Record) : Scan :=
  (if isRequestRecord record (recordEvents events record) then
      s.openTurn.2.root events sources s.openTurn.1
        (requestRootIdForRecord record (recordEvents events record))
    else s.openTurn.2).appendTo events sources s.openTurn.1 [record]

theorem opens_opened : Opens events s (s.opened events sources record) record := by
  have hlast : s.openTurn.1 = s.groups.length := length_groups.symm
  unfold Scan.opened
  by_cases hreq : IsRequest events record
  · have hyes : isRequestRecord record (recordEvents events record) = true := hreq
    rw [if_pos hyes]
    cases hroot : rootOf events record with
    | none =>
      have hsame : requestRootIdForRecord record (recordEvents events record) = none := hroot
      rw [hsame]
      refine ⟨?_, fun root => ?_, ?_, ?_⟩
      · rw [groups_appendTo, Scan.root, groups_openTurn, hlast, Groups.modify_last, Scan.waiting,
          if_pos hreq, hroot]
        rfl
      · rw [if_neg (by rw [hroot]; rintro ⟨-, h⟩; cases h)]
        rfl
      · rw [Scan.remaining, if_pos hreq, hroot]
        rfl
      · rw [← hlast]
        rfl
    | some root =>
      have hsame : requestRootIdForRecord record (recordEvents events record) = some root := hroot
      rw [hsame]
      refine ⟨?_, fun other => ?_, ?_, ?_⟩
      · rw [groups_appendTo, Scan.root, groups_appendTo]
        change ((s.openTurn.2.groups).modify s.openTurn.1 _).modify s.openTurn.1 _ = _
        rw [groups_openTurn, hlast, Groups.modify_last, Groups.modify_last, Scan.waiting,
          if_pos hreq, hroot]
        rfl
      · change (s.turnsByRequestRoot.insert root s.openTurn.1)[other]? = _
        rw [Table.lookup_insert, hlast]
        refine if_congr ?_ rfl rfl
        rw [hroot, Option.some.injEq]
        exact (and_iff_right hreq).symm
      · rw [Scan.remaining, if_pos hreq, hroot]
        rfl
      · rw [← hlast]
        rfl
  · have hnot : ¬isRequestRecord record (recordEvents events record) = true := hreq
    rw [if_neg hnot]
    refine ⟨?_, fun root => ?_, ?_, ?_⟩
    · rw [groups_appendTo, groups_openTurn, hlast, Groups.modify_last, Scan.waiting, if_neg hreq]
    · rw [if_neg fun h => hreq h.1]
      rfl
    · rw [Scan.remaining, if_neg hreq]
      rfl
    · rw [← hlast]
      rfl

/-- A record that is not attached joins the current turn, or opens one. -/
theorem place_none :
    (¬IsRequest events record ∧ ∃ index, s.currentTurn = some index ∧
        Joins s (s.place events sources record none) record index) ∨
      ((IsRequest events record ∨ s.currentTurn = none) ∧
        Opens events s (s.place events sources record none) record) := by
  by_cases hreq : isRequestRecord record (recordEvents events record) = true
  · have hplcd : s.turnFor none (isRequestRecord record (recordEvents events record) ||
        (decide (record.kind = .lifecycle) && s.currentTurn.isNone)) = s.openTurn := by
      rw [hreq, Bool.true_or]
      unfold Scan.turnFor
      cases s.currentTurn <;> rfl
    refine .inr ⟨.inl hreq, ?_⟩
    unfold Scan.place
    dsimp only
    rw [hplcd]
    exact opens_opened
  · cases hcur : s.currentTurn with
    | none =>
      have hplcd : s.turnFor none (isRequestRecord record (recordEvents events record) ||
          (decide (record.kind = .lifecycle) && s.currentTurn.isNone)) = s.openTurn := by
        unfold Scan.turnFor
        rw [hcur]
      refine .inr ⟨.inr rfl, ?_⟩
      unfold Scan.place
      dsimp only
      rw [hplcd]
      exact opens_opened
    | some index =>
      have hplcd : s.turnFor none (isRequestRecord record (recordEvents events record) ||
          (decide (record.kind = .lifecycle) && s.currentTurn.isNone)) = (index, s) := by
        unfold Scan.turnFor
        rw [hcur, Bool.eq_false_iff.2 hreq, Option.isNone_some, Bool.and_false]
        rfl
      refine .inl ⟨hreq, index, rfl, ?_⟩
      unfold Scan.place
      dsimp only
      rw [hplcd, if_neg hreq]
      exact joins_appendTo index

theorem place_attached {index : Nat} (h : ¬IsRequest events record) :
    Joins s (s.place events sources record (some index)) record index := by
  unfold Scan.place
  dsimp only
  have hnot : ¬isRequestRecord record (recordEvents events record) = true := h
  rw [if_neg hnot]
  exact joins_appendTo index

theorem scanRecord_cases :
    (∃ root, Waits events s (scanRecord events sources s record) record root) ∨
      (∃ index, Attached events s record index ∧
        Joins s (scanRecord events sources s record) record index) ∨
      (¬NamesRequest events record ∧ (∀ index, ¬Attached events s record index) ∧
        ((¬IsRequest events record ∧ ∃ index, s.currentTurn = some index ∧
            Joins s (scanRecord events sources s record) record index) ∨
          ((IsRequest events record ∨ s.currentTurn = none) ∧
            Opens events s (scanRecord events sources s record) record))) := by
  by_cases hctx : IsContext events record
  · have hnot : ¬IsRequest events record := fun h => not_context_of_request h hctx
    have hyes : decide (inputOriginForRecord record (recordEvents events record) =
        some .contextInjection) = true := decide_eq_true hctx
    have hno : isRequestRecord record (recordEvents events record) = false := Bool.eq_false_iff.2 hnot
    unfold scanRecord
    dsimp only
    rw [hyes, if_pos rfl, hno, hasExplicitContextRoot_eq]
    cases hroot : rootOf events record with
    | none =>
      have hsame : requestRootIdForRecord record (recordEvents events record) = none := hroot
      rw [hsame, ite_self]
      refine .inr (.inr ⟨?_, ?_, place_none⟩)
      · rintro ⟨-, hexpl⟩
        obtain ⟨root, hsome⟩ := rootOf_isSome hexpl
        rw [hroot] at hsome
        cases hsome
      · rintro index ⟨-, root, hsome, -⟩
        rw [hroot] at hsome
        cases hsome
    | some root =>
      have hsame : requestRootIdForRecord record (recordEvents events record) = some root := hroot
      rw [hsame, Option.bind_some]
      cases hturn : s.turnsByRequestRoot[root]? with
      | some index =>
        rw [Option.isNone_some, Bool.and_false, Bool.false_and, if_neg Bool.false_ne_true]
        exact .inr (.inl ⟨index, ⟨hctx, root, hroot, hturn⟩, place_attached hnot⟩)
      | none =>
        by_cases hexpl : (explicitRoot events record).isSome = true
        · rw [hexpl]
          exact .inl ⟨root, ⟨hctx, hexpl⟩, hroot, hturn, rfl⟩
        · rw [Bool.eq_false_iff.2 hexpl]
          refine .inr (.inr ⟨fun h => hexpl h.2, ?_, place_none⟩)
          rintro index ⟨-, other, hoth, hfnd⟩
          rw [← Option.some.inj (hroot.symm.trans hoth), hturn] at hfnd
          cases hfnd
  · have hno : decide (inputOriginForRecord record (recordEvents events record) =
        some .contextInjection) = false := decide_eq_false hctx
    unfold scanRecord
    dsimp only
    rw [hno, if_neg Bool.false_ne_true]
    exact .inr (.inr ⟨fun h => hctx h.1, fun index h => hctx h.1, place_none⟩)

end Step

/-! ### What holds while the records are read -/

/-- Context that names its request, or the request of which was read before. -/
def NamesKnown (events : List AgentChatEvent) (all : List Record) (record : Record) : Prop :=
  IsContext events record ∧ ((explicitRoot events record).isSome = true ∨
    ∃ request ∈ all, IsRequest events request ∧ request.seq < record.seq ∧
      ∃ root, rootOf events request = some root ∧ rootOf events record = some root)

/-- What is known of the records that have been read and of the records that opened the turns. -/
structure Inv (events : List AgentChatEvent) (all done : List Record) (s : Scan)
    (openers : List Record) : Prop where
  subset : ∀ record ∈ done, record ∈ all
  length : openers.length = s.groups.length
  current : s.currentTurn = if s.groups = [] then none else some (s.groups.length - 1)
  partition : (s.groups.flatten ++ Groups.values s.pendingRootedContexts).Perm done
  keys : (Groups.keys s.pendingRootedContexts).Nodup
  nonempty : ∀ entry ∈ s.pendingRootedContexts, entry.2 ≠ []
  pending : ∀ root record, Groups.InGroup s.pendingRootedContexts root record →
    NamesRequest events record ∧ rootOf events record = some root ∧ s.turnsByRequestRoot[root]? = none
  opener_at : ∀ i opener, openers[i]? = some opener → Groups.At s.groups i opener
  opener_request : ∀ i opener, openers[i]? = some opener → 0 < i → IsRequest events opener
  ordered : openers.Pairwise fun first second => first.seq < second.seq
  requests : ∀ i record, Groups.At s.groups i record → IsRequest events record →
    openers[i]? = some record
  first : ∀ opener, openers[0]? = some opener → ¬NamesRequest events opener ∧
    ∀ record ∈ done, ¬NamesRequest events record → opener.seq ≤ record.seq
  none_yet : openers = [] → ∀ record ∈ done, NamesRequest events record
  roots : ∀ root i, s.turnsByRequestRoot[root]? = some i → ∃ opener, openers[i]? = some opener ∧
    IsRequest events opener ∧ rootOf events opener = some root
  roots_known : ∀ request ∈ done, IsRequest events request → ∀ root,
    rootOf events request = some root → s.turnsByRequestRoot[root]? ≠ none
  governed : ∀ record ∈ done, ¬NamesKnown events all record → ∃ i opener, Groups.At s.groups i record ∧
    openers[i]? = some opener ∧ opener.seq ≤ record.seq ∧
      ∀ j later, openers[j]? = some later → i < j → record.seq < later.seq
  contexts : ∀ i record, Groups.At s.groups i record → NamesRequest events record →
    ∃ opener, openers[i]? = some opener ∧ IsRequest events opener ∧
      rootOf events opener = rootOf events record

namespace Inv

variable {events : List AgentChatEvent} {sources : List ConversationSourceRecord}
  {all done openers : List Record} {s s' : Scan} {record : Record}

variable {x : Record}

theorem mem_done (h : Inv events all done s openers) {i : Nat} (hx : Groups.At s.groups i x) : x ∈ done :=
  h.partition.mem_iff.1 (mem_append_left _ (Groups.mem_flatten_iff_at.2 ⟨i, hx⟩))

theorem empty (events : List AgentChatEvent) (all : List Record) : Inv events all [] Scan.empty [] := by
  have hnot : ∀ i x, ¬Groups.At Scan.empty.groups i x := by
    rintro i x ⟨xs, hxs, -⟩
    cases hxs
  constructor
  case subset => intro record hrec; cases hrec
  case length => rfl
  case current => rfl
  case partition => exact .refl _
  case keys => exact nodup_nil
  case nonempty => intro entry hent; cases hent
  case pending => rintro root record ⟨xs, hxs, -⟩; cases hxs
  case opener_at => intro i opener h; cases h
  case opener_request => intro i opener h; cases h
  case ordered => exact .nil
  case requests => intro i record h; exact absurd h (hnot i record)
  case first => intro opener h; cases h
  case none_yet => intro _ record hrec; cases hrec
  case roots =>
    intro root i h
    have hemp : (∅ : Table Nat)[root]? = some i := h
    rw [Table.lookup_empty] at hemp
    cases hemp
  case roots_known => intro request hreq; cases hreq
  case governed => intro record hrec; cases hrec
  case contexts => intro i record h; exact absurd h (hnot i record)

theorem wait (h : Inv events all done s openers) {root : String} (hall : record ∈ all)
    (hwait : Waits events s s' record root) : Inv events all (done ++ [record]) s' openers := by
  obtain ⟨hnms, hroot, hunkn, rfl⟩ := hwait
  have hkn : NamesKnown events all record := ⟨hnms.1, .inl hnms.2⟩
  have hnotRequest : ¬IsRequest events record := fun hreq =>
    not_context_of_request hreq hnms.1
  have hlast : ∀ x, x ∈ done ++ [record] → x ∈ done ∨ x = record := by
    intro x hx
    rwa [mem_append, mem_singleton] at hx
  constructor
  case subset =>
    intro x hx
    rcases hlast x hx with hx | rfl
    · exact h.subset x hx
    · exact hall
  case length => exact h.length
  case current => exact h.current
  case partition =>
    refine ((Groups.values_push root record s.pendingRootedContexts).append_left _).trans ?_
    rw [← append_assoc]
    exact h.partition.append_right _
  case keys => exact Groups.nodup_push record h.keys
  case nonempty => exact Groups.nonempty_push h.nonempty
  case pending =>
    intro other x hx
    rcases Groups.inGroup_push.1 hx with hx | ⟨rfl, rfl⟩
    · exact h.pending other x hx
    · exact ⟨hnms, hroot, hunkn⟩
  case opener_at => exact h.opener_at
  case opener_request => exact h.opener_request
  case ordered => exact h.ordered
  case requests => exact h.requests
  case first =>
    intro opener hopnr
    refine ⟨(h.first opener hopnr).1, fun x hx hnot => ?_⟩
    rcases hlast x hx with hx | rfl
    · exact (h.first opener hopnr).2 x hx hnot
    · exact absurd hnms hnot
  case none_yet =>
    intro hnone x hx
    rcases hlast x hx with hx | rfl
    · exact h.none_yet hnone x hx
    · exact hnms
  case roots => exact h.roots
  case roots_known =>
    intro x hx hreq
    rcases hlast x hx with hx | rfl
    · exact h.roots_known x hx hreq
    · exact absurd hreq hnotRequest
  case governed =>
    intro x hx hnot
    rcases hlast x hx with hx | rfl
    · exact h.governed x hx hnot
    · exact absurd hkn hnot
  case contexts => exact h.contexts

theorem join (h : Inv events all done s openers) (hall : record ∈ all)
    (hltr : ∀ x ∈ done, x.seq < record.seq) {index : Nat} (hnotRequest : ¬IsRequest events record)
    (hidx : index < s.groups.length)
    (hplc : Attached events s record index ∨ (¬NamesRequest events record ∧ index = s.groups.length - 1))
    (hjoins : Joins s s' record index) : Inv events all (done ++ [record]) s' openers := by
  have hat : ∀ i x, Groups.At s'.groups i x ↔ Groups.At s.groups i x ∨ (i = index ∧ x = record) := by
    intro i x
    rw [hjoins.groups, Groups.at_modify hidx, mem_singleton]
  have hlast : ∀ x, x ∈ done ++ [record] → x ∈ done ∨ x = record := by
    intro x hx
    rwa [mem_append, mem_singleton] at hx
  have hlen : s'.groups.length = s.groups.length := by
    rw [hjoins.groups, length_modify]
  have hopnd : ∃ opener, openers[index]? = some opener := by
    rw [← h.length] at hidx
    exact ⟨_, getElem?_eq_getElem hidx⟩
  have hbef : ∀ i (opener : Record), openers[i]? = some opener → opener.seq < record.seq := fun i opener hi =>
    hltr opener (h.mem_done (h.opener_at i opener hi))
  constructor
  case subset =>
    intro x hx
    rcases hlast x hx with hx | rfl
    · exact h.subset x hx
    · exact hall
  case length => rw [hlen, h.length]
  case current =>
    have hemp : s'.groups = [] ↔ s.groups = [] := by
      rw [← length_eq_zero_iff, ← length_eq_zero_iff, hlen]
    rw [hjoins.current, h.current, hlen]
    exact if_congr hemp.symm rfl rfl
  case partition =>
    rw [hjoins.groups, hjoins.pending]
    refine ((Groups.flatten_modify hidx [record]).append_right _).trans ?_
    rw [append_assoc]
    refine (perm_append_comm.append_left _).trans ?_
    rw [← append_assoc]
    exact h.partition.append_right _
  case keys => rw [hjoins.pending]; exact h.keys
  case nonempty => rw [hjoins.pending]; exact h.nonempty
  case pending => rw [hjoins.pending, hjoins.roots]; exact h.pending
  case opener_at => exact fun i opener hi => (hat i opener).2 (.inl (h.opener_at i opener hi))
  case opener_request => exact h.opener_request
  case ordered => exact h.ordered
  case requests =>
    intro i x hx hreq
    rcases (hat i x).1 hx with hx | ⟨-, rfl⟩
    · exact h.requests i x hx hreq
    · exact absurd hreq hnotRequest
  case first =>
    intro opener hopnr
    refine ⟨(h.first opener hopnr).1, fun x hx hnot => ?_⟩
    rcases hlast x hx with hx | rfl
    · exact (h.first opener hopnr).2 x hx hnot
    · exact Nat.le_of_lt (hbef 0 opener hopnr)
  case none_yet =>
    intro hnone
    obtain ⟨opener, hopnr⟩ := hopnd
    rw [hnone] at hopnr
    cases hopnr
  case roots => rw [hjoins.roots]; exact h.roots
  case roots_known =>
    intro x hx hreq
    rw [hjoins.roots]
    rcases hlast x hx with hx | rfl
    · exact h.roots_known x hx hreq
    · exact absurd hreq hnotRequest
  case governed =>
    intro x hx hnot
    rcases hlast x hx with hx | rfl
    · obtain ⟨i, opener, hxi, hopnr, hle, haft⟩ := h.governed x hx hnot
      exact ⟨i, opener, (hat i x).2 (.inl hxi), hopnr, hle, haft⟩
    · rcases hplc with ⟨hctx, root, hroot, hfnd⟩ | ⟨-, hcur⟩
      · -- its request was read before, so it is not governed by the order
        obtain ⟨opener, hopnr, hreq, hopenerRoot⟩ := h.roots root index hfnd
        refine absurd ⟨hctx, .inr ⟨opener, ?_, hreq, hbef index opener hopnr, root,
          hopenerRoot, hroot⟩⟩ hnot
        exact h.subset opener (h.mem_done (h.opener_at index opener hopnr))
      · obtain ⟨opener, hopnr⟩ := hopnd
        refine ⟨index, opener, (hat index x).2 (.inr ⟨rfl, rfl⟩), hopnr,
          Nat.le_of_lt (hbef index opener hopnr), fun j later hj hlt => ?_⟩
        have hbnd := (List.getElem?_eq_some_iff.1 hj).1
        rw [h.length] at hbnd
        omega
  case contexts =>
    intro i x hx hnms
    rcases (hat i x).1 hx with hx | ⟨rfl, rfl⟩
    · exact h.contexts i x hx hnms
    · rcases hplc with ⟨-, root, hroot, hfnd⟩ | ⟨hnot, -⟩
      · obtain ⟨opener, hopnr, hreq, hopenerRoot⟩ := h.roots root i hfnd
        exact ⟨opener, hopnr, hreq, hopenerRoot.trans hroot.symm⟩
      · exact absurd hnms hnot

theorem values_waiting (s : Scan) (events : List AgentChatEvent) (record : Record) :
    (Groups.values s.pendingRootedContexts).Perm
      (s.waiting events record ++ Groups.values (s.remaining events record)) := by
  unfold Scan.waiting Scan.remaining
  split
  · cases rootOf events record with
    | none => exact .refl _
    | some root => exact Groups.values_found root s.pendingRootedContexts
  · exact .refl _

theorem mem_waiting (hkeys : (Groups.keys s.pendingRootedContexts).Nodup) :
    x ∈ s.waiting events record ↔ IsRequest events record ∧ ∃ root, rootOf events record = some root ∧
      Groups.InGroup s.pendingRootedContexts root x := by
  unfold Scan.waiting
  split
  next hreq =>
    rw [and_iff_right hreq]
    cases hroot : rootOf events record with
    | none =>
      refine iff_of_false not_mem_nil ?_
      rintro ⟨root, hsome, -⟩
      cases hsome
    | some root =>
      rw [Option.map_some, Option.getD_some, Groups.mem_found hkeys]
      constructor
      · exact fun hx => ⟨root, rfl, hx⟩
      · rintro ⟨other, hoth, hx⟩
        rwa [Option.some.inj hoth]
  next hnot => exact iff_of_false not_mem_nil fun hx => hnot hx.1

theorem inGroup_remaining (hkeys : (Groups.keys s.pendingRootedContexts).Nodup) {root : String}
    : Groups.InGroup (s.remaining events record) root x ↔
      Groups.InGroup s.pendingRootedContexts root x ∧
        ¬(IsRequest events record ∧ rootOf events record = some root) := by
  unfold Scan.remaining
  split
  next hreq =>
    cases hroot : rootOf events record with
    | none =>
      refine (and_iff_left ?_).symm
      rintro ⟨-, hsome⟩
      cases hsome
    | some known =>
      rw [Option.map_some, Option.getD_some, Groups.inGroup_without hkeys, and_iff_right hreq,
        Option.some.injEq]
      exact and_congr_right fun _ => not_congr eq_comm
  next hnot => exact (and_iff_left fun hx => hnot hx.1).symm

theorem keys_remaining (hkeys : (Groups.keys s.pendingRootedContexts).Nodup) :
    (Groups.keys (s.remaining events record)).Nodup := by
  unfold Scan.remaining
  split
  · cases rootOf events record with
    | none => exact hkeys
    | some root => exact Groups.nodup_without root hkeys
  · exact hkeys

theorem remaining_subset {entry : String × List Record} (h : entry ∈ s.remaining events record) :
    entry ∈ s.pendingRootedContexts := by
  unfold Scan.remaining at h
  split at h
  · cases hroot : rootOf events record with
    | none =>
      rw [hroot] at h
      exact h
    | some root =>
      rw [hroot] at h
      exact mem_of_mem_eraseP h
  · exact h

theorem opening (h : Inv events all done s openers) (hall : record ∈ all)
    (hltr : ∀ x ∈ done, x.seq < record.seq) (hnms : ¬NamesRequest events record)
    (hstrs : IsRequest events record ∨ s.currentTurn = none) (hops : Opens events s s' record) :
    Inv events all (done ++ [record]) s' (openers ++ [record]) := by
  have hat : ∀ i x, Groups.At s'.groups i x ↔ Groups.At s.groups i x ∨
      (i = s.groups.length ∧ (x ∈ s.waiting events record ∨ x = record)) := by
    intro i x
    rw [hops.groups, Groups.at_concat, mem_append, mem_singleton]
  have hlast : ∀ x, x ∈ done ++ [record] → x ∈ done ∨ x = record := by
    intro x hx
    rwa [mem_append, mem_singleton] at hx
  have hopnr : ∀ i opener, (openers ++ [record])[i]? = some opener ↔
      openers[i]? = some opener ∨ (i = s.groups.length ∧ opener = record) := by
    intro i opener
    rw [← h.length]
    exact Groups.getElem?_concat_iff
  have hbef : ∀ i (opener : Record), openers[i]? = some opener → opener.seq < record.seq :=
    fun i opener hi => hltr opener (h.mem_done (h.opener_at i opener hi))
  constructor
  case subset =>
    intro x hx
    rcases hlast x hx with hx | rfl
    · exact h.subset x hx
    · exact hall
  case length =>
    rw [hops.groups, length_append, length_append, h.length]
    rfl
  case current =>
    rw [hops.current, hops.groups, if_neg (by simp), length_append]
    rfl
  case partition =>
    -- what waited is in the new turn, in front of the record
    have hwtng := values_waiting s events record
    calc s'.groups.flatten ++ Groups.values s'.pendingRootedContexts
        = s.groups.flatten ++ (s.waiting events record ++
            ([record] ++ Groups.values (s.remaining events record))) := by
          rw [hops.groups, hops.pending, flatten_append, flatten_singleton,
            append_assoc, append_assoc]
      _ |>.Perm (s.groups.flatten ++ ((s.waiting events record ++
            Groups.values (s.remaining events record)) ++ [record])) := by
          rw [append_assoc]
          exact (perm_append_comm.append_left _).append_left _
      _ |>.Perm (s.groups.flatten ++ (Groups.values s.pendingRootedContexts ++ [record])) :=
          ((hwtng.symm.append_right _).append_left _)
      _ |>.Perm (done ++ [record]) := by
          rw [← append_assoc]
          exact h.partition.append_right _
  case keys => rw [hops.pending]; exact keys_remaining h.keys
  case nonempty =>
    rw [hops.pending]
    exact fun entry hent => h.nonempty entry (remaining_subset hent)
  case pending =>
    intro root x hx
    rw [hops.pending, inGroup_remaining h.keys] at hx
    obtain ⟨hfst, hsec, hthird⟩ := h.pending root x hx.1
    refine ⟨hfst, hsec, ?_⟩
    rw [hops.roots, if_neg hx.2, hthird]
  case opener_at =>
    intro i opener hi
    rcases (hopnr i opener).1 hi with hi | ⟨rfl, rfl⟩
    · exact (hat i opener).2 (.inl (h.opener_at i opener hi))
    · exact (hat _ opener).2 (.inr ⟨rfl, .inr rfl⟩)
  case opener_request =>
    intro i opener hi hpos
    rcases (hopnr i opener).1 hi with hi | ⟨rfl, rfl⟩
    · exact h.opener_request i opener hi hpos
    · refine hstrs.resolve_right fun hnone => ?_
      rw [h.current] at hnone
      split at hnone
      next hemp => rw [hemp] at hpos; cases hpos
      next => cases hnone
  case ordered =>
    refine pairwise_append.2 ⟨h.ordered, pairwise_singleton _ _, ?_⟩
    intro opener hmem last hlast'
    rw [mem_singleton.1 hlast']
    obtain ⟨i, hi⟩ := mem_iff_getElem?.1 hmem
    exact hbef i opener hi
  case requests =>
    intro i x hx hreq
    rw [hopnr]
    rcases (hat i x).1 hx with hx | ⟨rfl, hx | rfl⟩
    · exact .inl (h.requests i x hx hreq)
    · obtain ⟨-, root, -, hgrp⟩ := (mem_waiting h.keys).1 hx
      exact absurd (h.pending root x hgrp).1.1 (not_context_of_request hreq)
    · exact .inr ⟨rfl, rfl⟩
  case first =>
    intro opener hi
    rcases (hopnr 0 opener).1 hi with hold | ⟨hzero, rfl⟩
    · refine ⟨(h.first opener hold).1, fun x hx hnot => ?_⟩
      rcases hlast x hx with hx | rfl
      · exact (h.first opener hold).2 x hx hnot
      · exact Nat.le_of_lt (hbef 0 opener hold)
    · refine ⟨hnms, fun x hx hnot => ?_⟩
      rcases hlast x hx with hx | rfl
      · refine absurd (h.none_yet ?_ x hx) hnot
        rw [← length_eq_zero_iff, h.length]
        exact hzero.symm
      · exact Nat.le_refl _
  case none_yet =>
    intro hnone
    exact absurd hnone (by simp)
  case roots =>
    intro root i hi
    rw [hops.roots] at hi
    split at hi
    next hkn =>
      obtain rfl := Option.some.inj hi
      exact ⟨record, (hopnr _ record).2 (.inr ⟨rfl, rfl⟩), hkn⟩
    next =>
      obtain ⟨opener, hfnd, hreq, hroot⟩ := h.roots root i hi
      exact ⟨opener, (hopnr i opener).2 (.inl hfnd), hreq, hroot⟩
  case roots_known =>
    intro x hx hreq root hroot
    rw [hops.roots]
    split
    · exact Option.some_ne_none _
    next hnot =>
      rcases hlast x hx with hx | rfl
      · exact h.roots_known x hx hreq root hroot
      · exact absurd ⟨hreq, hroot⟩ hnot
  case governed =>
    intro x hx hnot
    rcases hlast x hx with hold | rfl
    · obtain ⟨i, opener, hxi, hfnd, hle, haft⟩ := h.governed x hold hnot
      refine ⟨i, opener, (hat i x).2 (.inl hxi), (hopnr i opener).2 (.inl hfnd), hle, ?_⟩
      intro j later hj hlt
      rcases (hopnr j later).1 hj with hj | ⟨-, rfl⟩
      · exact haft j later hj hlt
      · exact hltr x hold
    · refine ⟨_, x, (hat _ x).2 (.inr ⟨rfl, .inr rfl⟩), (hopnr _ x).2 (.inr ⟨rfl, rfl⟩), Nat.le_refl _, ?_⟩
      intro j later hj hlt
      rcases (hopnr j later).1 hj with hj | ⟨rfl, -⟩
      · have hbnd := (List.getElem?_eq_some_iff.1 hj).1
        rw [h.length] at hbnd
        omega
      · exact absurd hlt (Nat.lt_irrefl _)
  case contexts =>
    intro i x hx hctx
    rcases (hat i x).1 hx with hx | ⟨rfl, hx | rfl⟩
    · obtain ⟨opener, hfnd, hreq, hroot⟩ := h.contexts i x hx hctx
      exact ⟨opener, (hopnr i opener).2 (.inl hfnd), hreq, hroot⟩
    · obtain ⟨hreq, root, hroot, hgrp⟩ := (mem_waiting h.keys).1 hx
      exact ⟨record, (hopnr _ record).2 (.inr ⟨rfl, rfl⟩), hreq,
        hroot.trans (h.pending root x hgrp).2.1.symm⟩
    · exact absurd hctx hnms

theorem step (h : Inv events all done s openers) (hall : record ∈ all)
    (hltr : ∀ x ∈ done, x.seq < record.seq) :
    ∃ openers', Inv events all (done ++ [record]) (scanRecord events sources s record) openers' := by
  have hcs := @scanRecord_cases events sources s record
  rcases hcs with ⟨root, hwait⟩ | ⟨index, hatta, hjoins⟩ |
    ⟨hnms, -, ⟨hnot, index, hcur, hjoins⟩ | ⟨hstrs, hops⟩⟩
  · exact ⟨openers, h.wait hall hwait⟩
  · refine ⟨openers, h.join hall hltr ?_ ?_ (.inl hatta) hjoins⟩
    · exact fun hreq => not_context_of_request hreq hatta.1
    · obtain ⟨-, root, -, hfnd⟩ := hatta
      obtain ⟨opener, hopnr, -⟩ := h.roots root index hfnd
      exact (h.opener_at index opener hopnr).lt
  · have hidx : s.groups ≠ [] ∧ index = s.groups.length - 1 := by
      rw [h.current] at hcur
      split at hcur
      next => cases hcur
      next hne => exact ⟨hne, (Option.some.inj hcur).symm⟩
    have hpos := length_pos_iff.2 hidx.1
    exact ⟨openers, h.join hall hltr hnot (by omega) (.inr ⟨hnms, hidx.2⟩) hjoins⟩
  · exact ⟨_, h.opening hall hltr hnms hstrs hops⟩

theorem scan (rest : List Record) (h : Inv events all done s openers)
    (hsrtd : (done ++ rest).Pairwise fun first second => first.seq < second.seq)
    (hall : ∀ x ∈ rest, x ∈ all) :
    ∃ openers', Inv events all (done ++ rest) (rest.foldl (scanRecord events sources) s) openers' := by
  induction rest generalizing done s openers with
  | nil =>
    rw [append_nil]
    exact ⟨openers, h⟩
  | cons record rest ih =>
    have hbef : ∀ x ∈ done, x.seq < record.seq := fun x hx =>
      (pairwise_append.1 hsrtd).2.2 x hx record (mem_cons_self ..)
    obtain ⟨openers', hstep⟩ : ∃ openers', Inv events all (done ++ [record])
        (scanRecord events sources s record) openers' :=
      h.step (hall record (mem_cons_self ..)) hbef
    have hmove : done ++ record :: rest = (done ++ [record]) ++ rest := by
      rw [append_assoc]
      rfl
    rw [hmove] at hsrtd ⊢
    exact ih hstep hsrtd fun x hx => hall x (mem_cons_of_mem _ hx)

end Inv

end Wardian.Archive
