/-
What the turns of a narrative hold.

Every record is in one turn.  Which one it is can be said without reading the records one after the other:
that of the last request in front of it, or that of the request it names.

Main results:

* `derive_perm` — the turns do not depend on the order in which the records are given;
* `derive_partitions_iff` — the turns partition the narrative exactly where context is known by the request
  that it names.
-/

import Wardian.Archive.Turns
import Mathlib.Data.List.Pairwise

set_option autoImplicit false

namespace Wardian.Archive

open List
open ProviderLog (AgentChatEvent)

/-! ### Lists that are sorted by a number -/

section Sorted

variable {α : Type} {number : α → Nat}

theorem pairwise_sorted (xs : List α) :
    (xs.mergeSort fun x y => number x ≤ number y).Pairwise fun x y => number x ≤ number y := by
  refine (pairwise_mergeSort ?_ ?_ xs).imp fun h => of_decide_eq_true h
  · intro x y z hxy hyz
    exact decide_eq_true (Nat.le_trans (of_decide_eq_true hxy) (of_decide_eq_true hyz))
  · intro x y
    rw [Bool.or_eq_true, decide_eq_true_iff, decide_eq_true_iff]
    exact Nat.le_total _ _

theorem sorted_eq_of_perm {xs ys : List α} (hperm : xs.Perm ys)
    (hnum : ∀ x ∈ xs, ∀ y ∈ xs, number x = number y → x = y) :
    (xs.mergeSort fun x y => number x ≤ number y) = ys.mergeSort fun x y => number x ≤ number y := by
  refine Perm.eq_of_pairwise ?_ (pairwise_sorted xs) (pairwise_sorted ys) ?_
  · intro x y hx hy hxy hyx
    refine hnum x (mem_mergeSort.1 hx) y ?_ (Nat.le_antisymm hxy hyx)
    exact hperm.mem_iff.2 (mem_mergeSort.1 hy)
  · exact (mergeSort_perm _ _).trans (hperm.trans (mergeSort_perm _ _).symm)

theorem eq_of_number {xs : List α} (hndp : (xs.map number).Nodup) {x y : α} (hx : x ∈ xs) (hy : y ∈ xs)
    (heq : number x = number y) : x = y :=
  inj_on_of_nodup_map hndp hx hy heq

end Sorted

/-! ### The records of the turns -/

section Collect

variable (order : MapOrder) {records : List Record} (events : List AgentChatEvent)
  (sources : List ConversationSourceRecord)

/-- What has been read when all records have been. -/
def scanned (records : List Record) : Scan :=
  (sortRecords records).foldl (scanRecord events sources) Scan.empty

theorem sortRecords_perm (records : List Record) : (sortRecords records).Perm records :=
  mergeSort_perm _ _

theorem sortRecords_lt (hseq : (records.map (·.seq)).Nodup) :
    (sortRecords records).Pairwise fun first second => first.seq < second.seq := by
  have hndp : ((sortRecords records).map (·.seq)).Nodup :=
    ((sortRecords_perm records).map _).nodup_iff.2 hseq
  refine (pairwise_map.1 hndp).and (pairwise_sorted records) |>.imp ?_
  exact fun h => Nat.lt_of_le_of_ne h.2 h.1

theorem scanned_inv (hseq : (records.map (·.seq)).Nodup) :
    ∃ openers, Inv events records (sortRecords records) (scanned events sources records) openers := by
  have hrun := @Inv.scan events sources records [] [] Scan.empty (sortRecords records)
    (Inv.empty events records)
  rw [nil_append] at hrun
  exact hrun (sortRecords_lt hseq) fun x hx => (sortRecords_perm records).mem_iff.1 hx

theorem collectTurns_records (records : List Record) :
    (collectTurns order records events sources).map (·.records) =
      (scanned events sources records).groups ++
        (order.order (scanned events sources records).pendingRootedContexts).map Prod.snd := by
  unfold collectTurns
  rw [map_append, map_map]
  refine congrArg _ (map_congr_left fun entry _ => ?_)
  exact (records_foldl entry.2 TurnAccumulator.empty).trans (nil_append _)

theorem collectTurns_perm (hseq : (records.map (·.seq)).Nodup) :
    (((collectTurns order records events sources).map (·.records)).flatten).Perm records := by
  obtain ⟨openers, hinv⟩ := scanned_inv events sources hseq
  rw [collectTurns_records, flatten_append]
  refine (Perm.append_left _ ?_).trans (hinv.partition.trans (sortRecords_perm records))
  exact ((order.perm _).map Prod.snd).flatten

variable {turn : TurnAccumulator}

/-- A turn is one that was opened, or it holds the context that waits for a request. -/
theorem mem_collectTurns (h : turn ∈ collectTurns order records events sources) :
    (∃ i : Nat, (scanned events sources records).groups[i]? = some turn.records) ∨
      ∃ root, (root, turn.records) ∈ (scanned events sources records).pendingRootedContexts := by
  have hmem := mem_map_of_mem (f := fun t : TurnAccumulator => t.records) h
  rw [collectTurns_records, mem_append] at hmem
  refine hmem.imp (fun hgrp => mem_iff_getElem?.1 hgrp) fun hleft => ?_
  obtain ⟨entry, hent, heq⟩ := mem_map.1 hleft
  refine ⟨entry.1, ?_⟩
  rw [← heq]
  exact (order.perm _).mem_iff.1 hent

theorem exists_turn_of_group {i : Nat} {r : Record}
    (h : Groups.At (scanned events sources records).groups i r) :
    ∃ turn ∈ collectTurns order records events sources, r ∈ turn.records ∧
      (scanned events sources records).groups[i]? = some turn.records := by
  obtain ⟨xs, hxs, hr⟩ := h
  have hmem : xs ∈ (collectTurns order records events sources).map (·.records) := by
    rw [collectTurns_records]
    exact mem_append_left _ (mem_of_getElem? hxs)
  obtain ⟨turn, hturn, rfl⟩ := mem_map.1 hmem
  exact ⟨turn, hturn, hr, hxs⟩

theorem collectTurns_nonempty (hseq : (records.map (·.seq)).Nodup)
    (h : turn ∈ collectTurns order records events sources) : turn.records ≠ [] := by
  obtain ⟨openers, hinv⟩ := scanned_inv events sources hseq
  rcases mem_collectTurns order events sources h with ⟨i, hi⟩ | ⟨root, hent⟩
  · have hlt := (List.getElem?_eq_some_iff.1 hi).1
    rw [← hinv.length] at hlt
    obtain ⟨xs, hxs, hmem⟩ := hinv.opener_at i _ (getElem?_eq_getElem hlt)
    rw [hi] at hxs
    rw [Option.some.inj hxs]
    exact ne_nil_of_mem hmem
  · exact hinv.nonempty _ hent

theorem collectTurns_nodup (hseq : (records.map (·.seq)).Nodup) :
    (((collectTurns order records events sources).map (·.records)).flatten).Nodup :=
  (collectTurns_perm order events sources hseq).nodup_iff.2 (Nodup.of_map _ hseq)

theorem eq_of_firstSeq (hseq : (records.map (·.seq)).Nodup) {other : TurnAccumulator}
    (hturn : turn ∈ collectTurns order records events sources)
    (hoth : other ∈ collectTurns order records events sources) (heq : turn.firstSeq = other.firstSeq) :
    turn = other := by
  have hmem : ∀ t ∈ collectTurns order records events sources, ∀ r ∈ t.records, r ∈ records := by
    intro t ht r hr
    refine (collectTurns_perm order events sources hseq).mem_iff.1 ?_
    exact mem_flatten_of_mem (mem_map_of_mem ht) hr
  obtain ⟨a, as, ha⟩ := exists_cons_of_ne_nil (collectTurns_nonempty order events sources hseq hturn)
  obtain ⟨b, bs, hb⟩ := exists_cons_of_ne_nil (collectTurns_nonempty order events sources hseq hoth)
  have hfst : a ∈ turn.records := ha ▸ mem_cons_self ..
  have hsec : b ∈ other.records := hb ▸ mem_cons_self ..
  unfold TurnAccumulator.firstSeq at heq
  rw [ha, hb] at heq
  obtain rfl : a = b := eq_of_number hseq (hmem turn hturn a hfst) (hmem other hoth b hsec) heq
  by_contra hne
  have hdisj := (nodup_flatten.1 (collectTurns_nodup order events sources hseq)).2
  have hsymm : Std.Symm fun t u : TurnAccumulator => t.records.Disjoint u.records :=
    ⟨fun t u h => h.symm⟩
  exact (pairwise_map.1 hdisj).forall hturn hoth hne hfst hsec

end Collect

/-! ### The derived turns -/

section Derive

variable (order : MapOrder) (conversationId : String) {records : List Record} (events : List AgentChatEvent)
  (sources : List ConversationSourceRecord) (isOpen : Bool)

theorem derive_turns (records : List Record) :
    (deriveTurnRecordsWithContext order conversationId records events sources isOpen).map (·.turn) =
      (collectTurns order records events sources).mergeSort
        fun left right => left.firstSeq ≤ right.firstSeq := by
  unfold deriveTurnRecordsWithContext
  dsimp only
  refine ext_getElem? fun i => ?_
  rw [getElem?_map, getElem?_mapIdx, Option.map_map]
  exact congrFun Option.map_id _

theorem derive_indexes (records : List Record) :
    (deriveTurnRecordsWithContext order conversationId records events sources isOpen).map (·.turnIndex) =
      range' 1 (deriveTurnRecordsWithContext order conversationId records events sources isOpen).length := by
  unfold deriveTurnRecordsWithContext
  dsimp only
  rw [length_mapIdx]
  refine ext_getElem ?_ fun i hi _ => ?_
  · rw [length_map, length_mapIdx, length_range']
  · rw [getElem_map, getElem_mapIdx, getElem_range', Nat.one_mul, Nat.add_comm]
    rfl

theorem derive_count (records : List Record) : ∀ t ∈
    deriveTurnRecordsWithContext order conversationId records events sources isOpen,
    t.recordCount = t.turn.records.length := by
  intro t ht
  obtain ⟨i, hi, rfl⟩ := exists_of_mem_mapIdx ht
  rfl

theorem mem_derive {turn : TurnAccumulator} :
    (∃ t ∈ deriveTurnRecordsWithContext order conversationId records events sources isOpen, t.turn = turn) ↔
      turn ∈ collectTurns order records events sources := by
  rw [← mem_map, derive_turns, mem_mergeSort]

/-- The turns do not depend on the order of the records, nor on that of a hash map. -/
theorem derive_perm {order' : MapOrder} {records' : List Record} (hperm : records'.Perm records)
    (hseq : (records.map (·.seq)).Nodup) :
    deriveTurnRecordsWithContext order' conversationId records' events sources isOpen =
      deriveTurnRecordsWithContext order conversationId records events sources isOpen := by
  have hsrtd : sortRecords records' = sortRecords records := by
    have hseq' : (records'.map (·.seq)).Nodup := (hperm.map _).nodup_iff.2 hseq
    exact sorted_eq_of_perm hperm fun x hx y hy heq => eq_of_number hseq' hx hy heq
  have hcoll : (collectTurns order' records' events sources).Perm
      (collectTurns order records events sources) := by
    unfold collectTurns
    rw [hsrtd]
    refine Perm.append_left _ (Perm.map _ ?_)
    exact (order'.perm _).trans (order.perm _).symm
  have hturns : ((collectTurns order' records' events sources).mergeSort
      fun left right => left.firstSeq ≤ right.firstSeq) =
        (collectTurns order records events sources).mergeSort
          fun left right => left.firstSeq ≤ right.firstSeq := by
    refine sorted_eq_of_perm hcoll fun x hx y hy heq => ?_
    exact eq_of_firstSeq order events sources hseq (hcoll.mem_iff.1 hx) (hcoll.mem_iff.1 hy) heq
  unfold deriveTurnRecordsWithContext
  rw [hturns]

end Derive

/-! ### The turn of a record -/

/-- The record that opened the turn of another one: the last request that is not behind it, or, in front of
the first request, the first record that does not name its request. -/
def Governs (events : List AgentChatEvent) (records : List Record) (opener record : Record) : Prop :=
  opener ∈ records ∧ opener.seq ≤ record.seq ∧
    ((IsRequest events opener ∧ ∀ request ∈ records, IsRequest events request →
        request.seq ≤ record.seq → request.seq ≤ opener.seq) ∨
      ((∀ request ∈ records, IsRequest events request → record.seq < request.seq) ∧
        ¬NamesRequest events opener ∧
        ∀ other ∈ records, ¬NamesRequest events other → opener.seq ≤ other.seq))

/-- Every record is in the turn in which it belongs. -/
structure Partitions (events : List AgentChatEvent) (records : List Record)
    (turns : List ConversationTurnRecord) : Prop where
  partition : ((turns.map (·.turn.records)).flatten).Perm records
  counts : ∀ t ∈ turns, t.recordCount = t.turn.records.length
  total : (turns.map (·.recordCount)).sum = records.length
  requests : ∀ t ∈ turns, (t.turn.records.filter fun record => IsRequest events record).length ≤ 1
  governed : ∀ record ∈ records, ¬NamesKnown events records record →
    ∃ t ∈ turns, record ∈ t.turn.records ∧ ∃ opener ∈ t.turn.records, Governs events records opener record
  contexts : ∀ record ∈ records, IsContext events record → ∀ root, explicitRoot events record = some root →
    (∃ request ∈ records, IsRequest events request ∧ rootOf events request = some root) →
    ∃ t ∈ turns, record ∈ t.turn.records ∧
      ∃ request ∈ t.turn.records, IsRequest events request ∧ rootOf events request = some root
  indexes : turns.map (·.turnIndex) = range' 1 turns.length

/-- Context that names a request of the narrative is known by it. -/
def RootsResolve (events : List AgentChatEvent) (records : List Record) : Prop :=
  ∀ record ∈ records, IsContext events record → ∀ root, explicitRoot events record = some root →
    (∃ request ∈ records, IsRequest events request ∧ rootOf events request = some root) →
      rootOf events record = some root

section Turns

variable (order : MapOrder) {conversationId : String} {records : List Record} {events : List AgentChatEvent}
  {sources : List ConversationSourceRecord} {isOpen : Bool}

variable {i : Nat} {record : Record}

theorem exists_derived (h : Groups.At (scanned events sources records).groups i record) :
    ∃ t ∈ deriveTurnRecordsWithContext order conversationId records events sources isOpen,
      record ∈ t.turn.records ∧ (scanned events sources records).groups[i]? = some t.turn.records := by
  obtain ⟨turn, hturn, hrec, hgrp⟩ := exists_turn_of_group order events sources h
  obtain ⟨t, ht, rfl⟩ := (mem_derive order conversationId events sources isOpen).2 hturn
  exact ⟨t, ht, hrec, hgrp⟩

variable {t : ConversationTurnRecord}

theorem collected_of_derived
    (h : t ∈ deriveTurnRecordsWithContext order conversationId records events sources isOpen) :
    t.turn ∈ collectTurns order records events sources :=
  (mem_derive order conversationId events sources isOpen).1 ⟨t, h, rfl⟩

variable {openers : List Record}

variable {request : Record}

section

variable (hinv : Inv events records (sortRecords records) (scanned events sources records) openers)
include hinv

theorem request_of_turn
    {turn : TurnAccumulator} (hturn : turn ∈ collectTurns order records events sources)
    (hmem : request ∈ turn.records) (hreq : IsRequest events request) :
    ∃ i : Nat, (scanned events sources records).groups[i]? = some turn.records ∧
      openers[i]? = some request := by
  rcases mem_collectTurns order events sources hturn with ⟨i, hi⟩ | ⟨root, hent⟩
  · exact ⟨i, hi, hinv.requests i request ⟨_, hi, hmem⟩ hreq⟩
  · have hnms := (hinv.pending root request ⟨_, hent, hmem⟩).1
    exact absurd hnms.1 (not_context_of_request hreq)

theorem request_at (hmem : request ∈ records) (hreq : IsRequest events request) :
    ∃ i : Nat, Groups.At (scanned events sources records).groups i request ∧
      openers[i]? = some request := by
  have hdone := hinv.partition.mem_iff.2 ((sortRecords_perm records).mem_iff.2 hmem)
  rcases mem_append.1 hdone with hgrp | hvl
  · obtain ⟨i, hi⟩ := Groups.mem_flatten_iff_at.1 hgrp
    exact ⟨i, hi, hinv.requests i request hi hreq⟩
  · obtain ⟨root, hroot⟩ := Groups.mem_values.1 hvl
    exact absurd (hinv.pending root request hroot).1.1 (not_context_of_request hreq)

theorem opener_lt
    {j : Nat} {first second : Record} (hi : openers[i]? = some first) (hj : openers[j]? = some second)
    (hlt : i < j) : first.seq < second.seq := by
  obtain ⟨hi', rfl⟩ := List.getElem?_eq_some_iff.1 hi
  obtain ⟨hj', rfl⟩ := List.getElem?_eq_some_iff.1 hj
  exact pairwise_iff_getElem.1 hinv.ordered i j hi' hj' hlt

theorem governs_of_inv
    {opener : Record} (hopnr : openers[i]? = some opener) (hle : opener.seq ≤ record.seq)
    (haft : ∀ j later, openers[j]? = some later → i < j → record.seq < later.seq) :
    Governs events records opener record := by
  have hmem : opener ∈ records := hinv.subset _ (hinv.mem_done (hinv.opener_at i opener hopnr))
  refine ⟨hmem, hle, ?_⟩
  by_cases hreq : IsRequest events opener
  · refine .inl ⟨hreq, fun request hin hyes hseq => ?_⟩
    obtain ⟨j, -, hj⟩ := request_at hinv hin hyes
    rcases Nat.lt_trichotomy j i with hlt | rfl | hlt
    · exact Nat.le_of_lt (opener_lt hinv hj hopnr hlt)
    · rw [hopnr] at hj
      exact Nat.le_of_eq (congrArg _ (Option.some.inj hj).symm)
    · exact absurd (haft j request hj hlt) (Nat.not_lt.2 hseq)
  · -- only the first turn is opened by anything else
    have hzero : i = 0 := by
      by_contra hne
      exact hreq (hinv.opener_request i opener hopnr (Nat.pos_of_ne_zero hne))
    subst hzero
    refine .inr ⟨fun request hin hyes => ?_, (hinv.first opener hopnr).1, fun other hoth hnot => ?_⟩
    · obtain ⟨j, -, hj⟩ := request_at hinv hin hyes
      refine haft j request hj (Nat.pos_of_ne_zero ?_)
      rintro rfl
      rw [hopnr] at hj
      exact hreq ((Option.some.inj hj).symm ▸ hyes)
    · exact (hinv.first opener hopnr).2 other ((sortRecords_perm records).mem_iff.2 hoth) hnot

end

theorem derive_partition (hseq : (records.map (·.seq)).Nodup) :
    (((deriveTurnRecordsWithContext order conversationId records events sources isOpen).map
      (·.turn.records)).flatten).Perm records := by
  have hmap : (deriveTurnRecordsWithContext order conversationId records events sources isOpen).map
      (·.turn.records) = ((deriveTurnRecordsWithContext order conversationId records events sources
        isOpen).map (·.turn)).map (·.records) := by
    rw [map_map]
    rfl
  rw [hmap, derive_turns]
  refine Perm.trans ?_ (collectTurns_perm order events sources hseq)
  exact ((mergeSort_perm _ _).map _).flatten

theorem derive_total (hseq : (records.map (·.seq)).Nodup) :
    ((deriveTurnRecordsWithContext order conversationId records events sources isOpen).map
      (·.recordCount)).sum = records.length := by
  have hmap : (deriveTurnRecordsWithContext order conversationId records events sources isOpen).map
      (·.recordCount) = ((deriveTurnRecordsWithContext order conversationId records events sources
        isOpen).map (·.turn.records)).map List.length := by
    rw [map_map]
    exact map_congr_left (derive_count order conversationId events sources isOpen records)
  rw [hmap, ← length_flatten]
  exact (derive_partition order hseq).length_eq

theorem derive_requests (hseq : (records.map (·.seq)).Nodup) : ∀ t ∈
    deriveTurnRecordsWithContext order conversationId records events sources isOpen,
    (t.turn.records.filter fun record => IsRequest events record).length ≤ 1 := by
  intro t ht
  obtain ⟨openers, hinv⟩ := scanned_inv events sources hseq
  have hturn := collected_of_derived order ht
  have hndp : t.turn.records.Nodup :=
    (nodup_flatten.1 (collectTurns_nodup order events sources hseq)).1 _ (mem_map_of_mem hturn)
  have hsame : ∀ first ∈ t.turn.records, ∀ second ∈ t.turn.records, IsRequest events first →
      IsRequest events second → first = second := by
    intro first hfst second hsec hyes hyes'
    obtain ⟨i, hi, hopnr⟩ := request_of_turn order hinv hturn hfst hyes
    have hoth := hinv.requests i second ⟨_, hi, hsec⟩ hyes'
    exact Option.some.inj (hopnr.symm.trans hoth)
  have hfilt := hndp.filter fun record => IsRequest events record
  have hmem : ∀ record ∈ t.turn.records.filter fun record => IsRequest events record,
      record ∈ t.turn.records ∧ IsRequest events record := by
    intro record hrec
    rw [mem_filter, decide_eq_true_iff] at hrec
    exact hrec
  revert hfilt hmem
  rcases t.turn.records.filter fun record => IsRequest events record with - | ⟨first, - | ⟨second, rest⟩⟩
  · exact fun _ _ => Nat.zero_le _
  · exact fun _ _ => Nat.le_refl _
  · intro hfilt hmem
    have hfst := hmem first (mem_cons_self ..)
    have hsec := hmem second (mem_cons_of_mem _ (mem_cons_self ..))
    have heq := hsame first hfst.1 second hsec.1 hfst.2 hsec.2
    exact absurd (mem_cons.2 (.inl heq)) (nodup_cons.1 hfilt).1

/-- A record that does not name its request is in the turn of the last request in front of it. -/
theorem derive_governed (hseq : (records.map (·.seq)).Nodup) : ∀ record ∈ records,
    ¬NamesKnown events records record →
      ∃ t ∈ deriveTurnRecordsWithContext order conversationId records events sources isOpen,
        record ∈ t.turn.records ∧ ∃ opener ∈ t.turn.records, Governs events records opener record := by
  intro record hmem hnot
  obtain ⟨openers, hinv⟩ := scanned_inv events sources hseq
  have hdone := (sortRecords_perm records).mem_iff.2 hmem
  obtain ⟨i, opener, hat, hopnr, hle, haft⟩ := hinv.governed record hdone hnot
  obtain ⟨t, ht, hrec, hgrp⟩ := exists_derived order hat
  refine ⟨t, ht, hrec, opener, ?_, governs_of_inv hinv hopnr hle haft⟩
  obtain ⟨xs, hxs, hin⟩ := hinv.opener_at i opener hopnr
  rw [hgrp] at hxs
  rwa [Option.some.inj hxs]

/-- Context that is known by a request of the narrative is in the turn of such a request. -/
theorem context_placed (hseq : (records.map (·.seq)).Nodup) {root : String} (hmem : record ∈ records)
    (hnms : NamesRequest events record) (hroot : rootOf events record = some root) (hin : request ∈ records)
    (hreq : IsRequest events request) (hkn : rootOf events request = some root) :
    ∃ t ∈ deriveTurnRecordsWithContext order conversationId records events sources isOpen,
      record ∈ t.turn.records ∧
        ∃ other ∈ t.turn.records, IsRequest events other ∧ rootOf events other = some root := by
  obtain ⟨openers, hinv⟩ := scanned_inv events sources hseq
  have hdone := hinv.partition.mem_iff.2 ((sortRecords_perm records).mem_iff.2 hmem)
  rcases mem_append.1 hdone with hgrp | hvl
  · obtain ⟨i, hi⟩ := Groups.mem_flatten_iff_at.1 hgrp
    obtain ⟨opener, hopnr, hyes, hsame⟩ := hinv.contexts i record hi hnms
    obtain ⟨t, ht, hrec, hrecs⟩ := exists_derived order hi
    obtain ⟨xs, hxs, hfnd⟩ := hinv.opener_at i opener hopnr
    rw [hrecs] at hxs
    refine ⟨t, ht, hrec, opener, ?_, hyes, hsame.trans hroot⟩
    rwa [Option.some.inj hxs]
  · -- the request is read, so nothing waits for it
    obtain ⟨other, hoth⟩ := Groups.mem_values.1 hvl
    obtain ⟨-, hsame, hunkn⟩ := hinv.pending other record hoth
    obtain rfl := Option.some.inj (hroot.symm.trans hsame)
    have hrequestDone := (sortRecords_perm records).mem_iff.2 hin
    exact absurd hunkn (hinv.roots_known request hrequestDone hreq root hkn)

/-- Context that names its request is known as every request of its turn is. -/
theorem root_of_turn (hseq : (records.map (·.seq)).Nodup)
    (ht : t ∈ deriveTurnRecordsWithContext order conversationId records events sources isOpen)
    (hrec : record ∈ t.turn.records) (hnms : NamesRequest events record)
    (hmem : request ∈ t.turn.records) (hreq : IsRequest events request) :
    rootOf events record = rootOf events request := by
  obtain ⟨openers, hinv⟩ := scanned_inv events sources hseq
  obtain ⟨i, hi, hopnr⟩ := request_of_turn order hinv (collected_of_derived order ht) hmem hreq
  obtain ⟨opener, hfnd, -, hsame⟩ := hinv.contexts i record ⟨_, hi, hrec⟩ hnms
  obtain rfl := Option.some.inj (hopnr.symm.trans hfnd)
  exact hsame.symm

end Turns

/-- The turns partition the narrative, in whatever order it is given, exactly where context that names a
request is known by it. -/
theorem derive_partitions_iff (order : MapOrder) (conversationId : String) (records : List Record)
    (events : List AgentChatEvent) (sources : List ConversationSourceRecord) (isOpen : Bool)
    (hseq : (records.map (·.seq)).Nodup) :
    (Partitions events records
        (deriveTurnRecordsWithContext order conversationId records events sources isOpen) ∧
      ∀ (order' : MapOrder) (records' : List Record), records'.Perm records →
        deriveTurnRecordsWithContext order' conversationId records' events sources isOpen =
          deriveTurnRecordsWithContext order conversationId records events sources isOpen) ↔
      RootsResolve events records := by
  constructor
  · rintro ⟨h, -⟩ record hmem hctx root hexpl hkn
    obtain ⟨t, ht, hrec, request, hin, hreq, hroot⟩ :=
      h.contexts record hmem hctx root hexpl hkn
    have hnms : NamesRequest events record := ⟨hctx, Option.isSome_iff_exists.2 ⟨root, hexpl⟩⟩
    exact (root_of_turn order hseq ht hrec hnms hin hreq).trans hroot
  · intro hresv
    refine ⟨⟨derive_partition order hseq, derive_count order conversationId events sources isOpen records,
      derive_total order hseq, derive_requests order hseq, derive_governed order hseq, ?_,
      derive_indexes order conversationId events sources isOpen records⟩, ?_⟩
    · rintro record hmem hctx root hexpl ⟨request, hin, hreq, hkn⟩
      have hroot := hresv record hmem hctx root hexpl ⟨request, hin, hreq, hkn⟩
      have hnms : NamesRequest events record := ⟨hctx, Option.isSome_iff_exists.2 ⟨root, hexpl⟩⟩
      exact context_placed order hseq hmem hnms hroot hin hreq hkn
    · intro order' records' hperm
      exact derive_perm order conversationId events sources isOpen hperm hseq

/-! ### A request and its context -/

def observation (id : String) (turnId : Option String) (metadata : Value) : AgentChatEvent where
  id := id
  sessionId := "agent"
  provider := "codex"
  kind := .message
  role := none
  text := none
  title := none
  status := none
  turnId := turnId
  source := none
  command := none
  exitCode := none
  path := none
  language := none
  createdAt := none
  sequence := none
  metadata := metadata

def requestOf (seq : Nat) (root : String) : Record where
  seq := seq
  kind := .message
  role := some "user"
  inputOrigin := some .humanInput
  requestRootId := some root
  text := none
  excerpt := none
  eventRefs := []
  sourceRefs := []

def contextOf (seq : Nat) (eventRefs : List String) : Record where
  seq := seq
  kind := .message
  role := none
  inputOrigin := some .contextInjection
  requestRootId := none
  text := none
  excerpt := none
  eventRefs := eventRefs
  sourceRefs := []

def sampleEvents : List AgentChatEvent :=
  [observation "e1" (some "t1") .null,
    observation "e2" none (.object [("request_root_id", .string "R")])]

theorem perm_self (entries : List (String × List Record)) : entries.Perm entries := .refl entries

def sameOrder : MapOrder := ⟨fun entries => entries, perm_self⟩

theorem rootsResolve_sample : RootsResolve sampleEvents [contextOf 1 ["e2"], requestOf 2 "R"] := by
  intro record hrec hctx root hexpl _
  rcases mem_cons.1 hrec with rfl | hrec
  · have hroot : rootOf sampleEvents (contextOf 1 ["e2"]) = some "R" := by decide
    have hsame : explicitRoot sampleEvents (contextOf 1 ["e2"]) = some "R" := by decide
    rw [hsame] at hexpl
    rw [hroot, hexpl]
  · obtain rfl := mem_singleton.1 hrec
    have hnot : ¬IsContext sampleEvents (requestOf 2 "R") := by decide
    exact absurd hctx hnot

theorem partitions_sample :
    Partitions sampleEvents [contextOf 1 ["e2"], requestOf 2 "R"]
        (deriveTurnRecordsWithContext sameOrder "c" [contextOf 1 ["e2"], requestOf 2 "R"] sampleEvents [] true) ∧
      ∀ (order : MapOrder) (records : List Record), records.Perm [contextOf 1 ["e2"], requestOf 2 "R"] →
        deriveTurnRecordsWithContext order "c" records sampleEvents [] true =
          deriveTurnRecordsWithContext sameOrder "c" [contextOf 1 ["e2"], requestOf 2 "R"] sampleEvents [] true :=
  (derive_partitions_iff sameOrder "c" [contextOf 1 ["e2"], requestOf 2 "R"] sampleEvents [] true
    (by decide)).2 rootsResolve_sample

/-- An observation that has a turn hides the request that a later one names. -/
theorem turn_hides_request :
    ¬∀ (order : MapOrder) (conversationId : String) (records : List Record) (events : List AgentChatEvent)
        (sources : List ConversationSourceRecord) (isOpen : Bool), (records.map (·.seq)).Nodup →
      Partitions events records
        (deriveTurnRecordsWithContext order conversationId records events sources isOpen) := by
  intro h
  have hseq : ([contextOf 1 ["e1", "e2"], requestOf 2 "R"].map (·.seq)).Nodup := by decide
  have hctx : IsContext sampleEvents (contextOf 1 ["e1", "e2"]) := by decide
  have hexpl : explicitRoot sampleEvents (contextOf 1 ["e1", "e2"]) = some "R" := by decide
  have hroot : rootOf sampleEvents (contextOf 1 ["e1", "e2"]) = some "t1" := by decide
  have hreq : IsRequest sampleEvents (requestOf 2 "R") := by decide
  have hkn : rootOf sampleEvents (requestOf 2 "R") = some "R" := by decide
  obtain ⟨t, ht, hrec, request, hmem, hyes, hsame⟩ :=
    (h sameOrder "c" _ sampleEvents [] true hseq).contexts _ (mem_cons_self ..) hctx "R" hexpl
      ⟨_, mem_cons_of_mem _ (mem_cons_self ..), hreq, hkn⟩
  have hnms : NamesRequest sampleEvents (contextOf 1 ["e1", "e2"]) := by decide
  have heq := root_of_turn sameOrder hseq ht hrec hnms hmem hyes
  rw [hroot, hsame] at heq
  exact absurd heq (by decide)

end Wardian.Archive
