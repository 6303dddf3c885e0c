/-
The records of a narrative, and the text that a turn shows of them.

A record of a narrative refers to the observations it was made of, and where it does not say itself who
made it and which request it belongs to, the observations do.  A turn shows at most 4000 characters of a
record's text; the loop that finds where to cut counts bytes, which are as many as the characters only
where each of them is one byte long.

Main results:

* `kept_eq_self_iff`, `kept_eq_take_iff` — what the loop keeps;
* `text_bounds_honest_iff` — the bounds are honest exactly where bytes and characters agree near the cut.
-/

import Wardian.Archive.Capture
import Wardian.Engine.Interpolate

set_option autoImplicit false

namespace Wardian.Archive

open Option
open List
open ProviderLog (AgentChatEvent AgentChatEventKind AgentChatRole)

inductive ConversationInputOrigin
  | humanInput
  | agentInput
  | contextInjection
  | providerInternal
  deriving DecidableEq

structure ConversationNarrativeRecord where
  seq : Nat
  kind : ConversationRecordKind
  role : Option String
  inputOrigin : Option ConversationInputOrigin
  requestRootId : Option String
  text : Option String
  excerpt : Option String
  eventRefs : List String
  sourceRefs : List String

/-! ### What the observations say -/

/-- A member of the metadata that is a text, a number or a truth value. -/
def metadataText (metadata : Value) (key : String) : Option String :=
  match metadata.get? key with
  | some (.string text) =>
    let trimmed := Text.trim text.toList
    if trimmed.isEmpty then none else some (String.ofList trimmed)
  | some (.number n) => some (Engine.numberText n)
  | some (.bool value) => some (if value then "true" else "false")
  | _ => none

def parseInputOrigin (value : String) : Option ConversationInputOrigin :=
  match String.ofList (Text.trim value.toList) with
  | "human_input" => some .humanInput
  | "agent_input" => some .agentInput
  | "context_injection" => some .contextInjection
  | "provider_internal" => some .providerInternal
  | _ => none

/-- Who made an input by its role, where the metadata do not say. -/
def originByRole (event : AgentChatEvent) : Option ConversationInputOrigin :=
  if event.kind ≠ .message then none
  else
    match event.role with
    | some .user =>
      if (metadataText event.metadata "sender_agent_id").isSome then some .agentInput
      else some .humanInput
    | some .system => some .providerInternal
    | _ => none

def inputOriginFromChatEvent (event : AgentChatEvent) : Option ConversationInputOrigin :=
  ((metadataText event.metadata "input_origin").bind parseInputOrigin).or (originByRole event)

def inputOriginForRecord (record : ConversationNarrativeRecord) (events : List AgentChatEvent) :
    Option ConversationInputOrigin :=
  record.inputOrigin.or (events.findSome? inputOriginFromChatEvent)

/-- The request of a record: its own, or that of the first observation that has one. -/
def requestRootIdForRecord (record : ConversationNarrativeRecord) (events : List AgentChatEvent) :
    Option String :=
  record.requestRootId.or
    (events.findSome? fun event => (metadataText event.metadata "request_root_id").or event.turnId)

def isRequestRecord (record : ConversationNarrativeRecord) (events : List AgentChatEvent) : Bool :=
  record.kind == .message && record.role == some "user" &&
    (match inputOriginForRecord record events with
      | some .humanInput | some .agentInput | none => true
      | _ => false)

/-! ### The text of a record -/

def turnTextLimitChars : Nat := 4000

/-- The bytes of a text. -/
def utf8Bytes (cs : List Char) : Nat := (cs.map Char.utf8Size).sum

/-- The loop over the characters with the bytes in front of each: where the last one ends that begins
before the limit, and whether one begins behind it. -/
def scanBytes (limit : Nat) : List Char → Nat → Nat → Nat × Bool
  | [], _, stop => (stop, false)
  | c :: cs, index, stop =>
    if limit ≤ index then (stop, true)
    else scanBytes limit cs (index + c.utf8Size) (index + c.utf8Size)

/-- The characters of a text that end at a byte or before it. -/
def sliceTo (stop : Nat) : List Char → List Char
  | [] => []
  | c :: cs => if c.utf8Size ≤ stop then c :: sliceTo (stop - c.utf8Size) cs else []

def boundedRecordText (record : ConversationNarrativeRecord) : Option String × Bool :=
  match record.text.or record.excerpt with
  | none => (none, false)
  | some text =>
    let scan := scanBytes turnTextLimitChars text.toList 0 0
    let truncated := (record.text.isNone && record.excerpt.isSome) || scan.2
    if text.toList.length ≤ turnTextLimitChars then (some text, truncated)
    else (some (String.ofList (sliceTo scan.1 text.toList)), true)

/-- The words of a text with one blank between them. -/
def compact (text : String) : List Char := [' '].intercalate (Text.words text.toList)

def compactTextWithTruncation (text : String) (limitChars : Nat) : Option String × Bool :=
  let words := compact text
  if words.isEmpty then (none, false)
  else
    let scan := scanBytes limitChars words 0 0
    if words.length ≤ limitChars then (some (String.ofList words), false)
    else (some (String.ofList (sliceTo scan.1 words)), true)

/-! ### What the loop keeps -/

/-- The characters that begin before a byte. -/
def kept (limit : Nat) : Nat → List Char → List Char
  | _, [] => []
  | index, c :: cs => if limit ≤ index then [] else c :: kept limit (index + c.utf8Size) cs

theorem utf8Bytes_cons (c : Char) (cs : List Char) : utf8Bytes (c :: cs) = c.utf8Size + utf8Bytes cs := rfl

theorem scanBytes_stop (limit : Nat) (cs : List Char) (index : Nat) :
    (scanBytes limit cs index index).1 = index + utf8Bytes (kept limit index cs) := by
  induction cs generalizing index with
  | nil => rfl
  | cons c cs ih =>
    rw [scanBytes, kept]
    split
    · rfl
    · rw [ih, utf8Bytes_cons, Nat.add_assoc]

/-- The loop goes to the end exactly where it keeps everything. -/
theorem scanBytes_flag (limit : Nat) (cs : List Char) (index stop : Nat) :
    (scanBytes limit cs index stop).2 = false ↔ kept limit index cs = cs := by
  induction cs generalizing index stop with
  | nil => exact iff_of_true rfl rfl
  | cons c cs ih =>
    rw [scanBytes, kept]
    split
    · exact iff_of_false (fun h => Bool.noConfusion h) (cons_ne_nil c cs).symm
    · rw [ih, List.cons.injEq]
      exact (and_iff_right rfl).symm

theorem sliceTo_kept (limit : Nat) (cs : List Char) (index : Nat) :
    sliceTo (utf8Bytes (kept limit index cs)) cs = kept limit index cs := by
  induction cs generalizing index with
  | nil => rfl
  | cons c cs ih =>
    have hsize := c.utf8Size_pos
    rw [kept]
    split
    · have hzero : utf8Bytes [] = 0 := rfl
      rw [hzero, sliceTo, if_neg (by omega)]
    · rw [utf8Bytes_cons, sliceTo, if_pos (Nat.le_add_right _ _), Nat.add_sub_cancel_left, ih]

theorem kept_length (limit : Nat) (cs : List Char) (index : Nat) :
    (kept limit index cs).length ≤ limit - index := by
  induction cs generalizing index with
  | nil => exact Nat.zero_le _
  | cons c cs ih =>
    have hsize := c.utf8Size_pos
    have hrest := ih (index + c.utf8Size)
    rw [kept]
    split
    · exact Nat.zero_le _
    · rw [length_cons]
      omega

/-- Everything is kept where the last character begins before the limit. -/
theorem kept_eq_self_iff (limit : Nat) (cs : List Char) (index : Nat) :
    kept limit index cs = cs ↔ cs = [] ∨ index + utf8Bytes cs.dropLast < limit := by
  induction cs generalizing index with
  | nil => exact iff_of_true rfl (.inl rfl)
  | cons c cs ih =>
    rw [kept]
    split
    · refine iff_of_false (cons_ne_nil c cs).symm ?_
      rintro (h | h)
      · exact absurd h (cons_ne_nil c cs)
      · omega
    · rw [List.cons.injEq, and_iff_right rfl, ih]
      cases cs with
      | nil =>
        refine iff_of_true (.inl rfl) (.inr ?_)
        have hzero : utf8Bytes [c].dropLast = 0 := rfl
        omega
      | cons d ds =>
        rw [dropLast_cons_cons, utf8Bytes_cons, Nat.add_assoc]
        refine or_congr_left ?_
        exact iff_of_false (cons_ne_nil d ds) (cons_ne_nil c _)

/-- Of a longer text the right number of characters is kept where all but the last are one byte long. -/
theorem kept_eq_take_iff {limit : Nat} {cs : List Char} {index : Nat} (hlen : limit - index ≤ cs.length) :
    kept limit index cs = cs.take (limit - index) ↔
      ∀ c ∈ cs.take (limit - index - 1), c.utf8Size = 1 := by
  induction cs generalizing index with
  | nil =>
    rw [take_nil, take_nil]
    exact iff_of_true rfl fun c hc => absurd hc not_mem_nil
  | cons c cs ih =>
    have hsize := c.utf8Size_pos
    rw [length_cons] at hlen
    rw [kept]
    split
    · have hzero : limit - index = 0 := by omega
      rw [hzero]
      exact iff_of_true rfl fun d hd => absurd hd not_mem_nil
    · obtain ⟨k, hk⟩ : ∃ k, limit - index = k + 1 := ⟨limit - index - 1, by omega⟩
      rw [hk, take_succ_cons, List.cons.injEq, and_iff_right rfl, Nat.add_sub_cancel]
      by_cases hone : c.utf8Size = 1
      · have hrest : limit - (index + c.utf8Size) = k := by omega
        have hcons : kept limit (index + c.utf8Size) cs = cs.take (limit - (index + c.utf8Size)) ↔
            ∀ d ∈ cs.take (limit - (index + c.utf8Size) - 1), d.utf8Size = 1 := ih (by omega)
        rw [hrest] at hcons
        rw [hcons]
        cases k with
        | zero => exact Iff.rfl
        | succ k =>
          rw [Nat.add_sub_cancel, take_succ_cons, forall_mem_cons]
          exact (and_iff_right hone).symm
      · have hkept := kept_length limit cs (index + c.utf8Size)
        cases k with
        | zero =>
          have hnil : kept limit (index + c.utf8Size) cs = [] := eq_nil_of_length_eq_zero (by omega)
          exact iff_of_true hnil fun d hd => absurd hd not_mem_nil
        | succ k =>
          -- a long character in front leaves too few of the others
          refine iff_of_false ?_ fun hall => hone (hall c (mem_cons_self))
          intro heq
          rw [heq, length_take] at hkept
          omega

/-! ### Honest bounds -/

theorem slice_scanBytes (limit : Nat) (cs : List Char) : sliceTo (scanBytes limit cs 0 0).1 cs = kept limit 0 cs := by
  rw [scanBytes_stop, Nat.zero_add, sliceTo_kept]

/-- A record's text is shown up to the limit, and marked exactly where it is not shown in full. -/
def BoundedHonest (record : ConversationNarrativeRecord) : Prop :=
  ∀ text, record.text.or record.excerpt = some text →
    ∃ shown, (boundedRecordText record).1 = some shown ∧
      shown.toList = text.toList.take (min turnTextLimitChars text.toList.length) ∧
      ((boundedRecordText record).2 = true ↔
        shown.toList.length < text.toList.length ∨ record.text = none)

/-- Words are shown up to a limit, and marked exactly where some are left out. -/
def CompactHonest (text : String) (limitChars : Nat) : Prop :=
  let shown := ((compactTextWithTruncation text limitChars).1.getD "").toList
  shown = (compact text).take (min limitChars (compact text).length) ∧
    ((compactTextWithTruncation text limitChars).2 = true ↔ shown.length < (compact text).length)

/-- The characters in front of the cut are one byte long each. -/
def AsciiBefore (limit : Nat) (cs : List Char) : Prop := ∀ c ∈ cs.take (limit - 1), c.utf8Size = 1

/-- Where bytes and characters agree near the cut of a record's text. -/
def RecordFits (record : ConversationNarrativeRecord) : Prop :=
  ∀ text, record.text.or record.excerpt = some text →
    (text.toList.length ≤ turnTextLimitChars →
      record.text = none ∨ text.toList = [] ∨ utf8Bytes text.toList.dropLast < turnTextLimitChars) ∧
    (turnTextLimitChars < text.toList.length → AsciiBefore turnTextLimitChars text.toList)

theorem boundedHonest_iff (record : ConversationNarrativeRecord) :
    BoundedHonest record ↔ RecordFits record := by
  refine forall_congr' fun text => forall_congr' fun hsrc => ?_
  unfold boundedRecordText
  rw [hsrc]
  simp only
  split
  · rename_i hle
    have htake : text.toList.take (min turnTextLimitChars text.toList.length) = text.toList := by
      rw [Nat.min_eq_right hle, take_length]
    have hflag : ((record.text.isNone && record.excerpt.isSome ||
        (scanBytes turnTextLimitChars text.toList 0 0).2) = true) ↔
          record.text = none ∨ (scanBytes turnTextLimitChars text.toList 0 0).2 = true := by
      rw [Bool.or_eq_true]
      refine or_congr_left ?_
      cases htext : record.text with
      | none =>
        rw [htext, none_or] at hsrc
        rw [hsrc]
        exact iff_of_true rfl rfl
      | some own => exact iff_of_false (fun h => Bool.noConfusion h) (some_ne_none own)
    have hscan := scanBytes_flag turnTextLimitChars text.toList 0 0
    rw [kept_eq_self_iff, Nat.zero_add] at hscan
    constructor
    · rintro ⟨shown, hshown, -, hiff⟩
      obtain rfl := some_inj.mp hshown
      refine ⟨fun _ => ?_, fun hlt => absurd hle (Nat.not_le.mpr hlt)⟩
      rw [← hscan]
      by_cases htext : record.text = none
      · exact .inl htext
      · refine .inr (Bool.eq_false_iff.mpr fun htrue => ?_)
        rcases hiff.mp (hflag.mpr (.inr htrue)) with hlt | hnone
        · exact absurd hlt (Nat.lt_irrefl _)
        · exact htext hnone
    · rintro ⟨hfits, -⟩
      refine ⟨text, rfl, htake.symm, ?_⟩
      rw [hflag]
      refine ⟨fun h => .inr ?_, fun h => .inl (h.resolve_left (Nat.lt_irrefl _))⟩
      rcases h with hnone | htrue
      · exact hnone
      · refine (hfits hle).resolve_right fun hends => ?_
        exact absurd htrue (Bool.eq_false_iff.mp (hscan.mpr hends))
  · rename_i hgt
    have hlt := Nat.lt_of_not_le hgt
    have htake : min turnTextLimitChars text.toList.length = turnTextLimitChars := Nat.min_eq_left hlt.le
    have hkept := @kept_eq_take_iff turnTextLimitChars text.toList 0 hlt.le
    have hlen := kept_length turnTextLimitChars text.toList 0
    rw [Nat.sub_zero] at hkept hlen
    rw [htake, slice_scanBytes]
    constructor
    · rintro ⟨shown, hshown, hpre, -⟩
      obtain rfl := some_inj.mp hshown
      rw [String.toList_ofList] at hpre
      exact ⟨fun hle => absurd hle hgt, fun _ => hkept.mp hpre⟩
    · rintro ⟨-, hascii⟩
      refine ⟨_, rfl, ?_, iff_of_true rfl (.inl ?_)⟩
      · rw [String.toList_ofList]
        exact hkept.mpr (hascii hlt)
      · rw [String.toList_ofList]
        omega

theorem compactHonest_iff (text : String) (limitChars : Nat) :
    CompactHonest text limitChars ↔
      (limitChars < (compact text).length → AsciiBefore limitChars (compact text)) := by
  unfold CompactHonest compactTextWithTruncation
  generalize compact text = words
  cases words with
  | nil =>
    simp only [isEmpty_nil, if_true, getD_none, take_nil]
    refine iff_of_true ⟨String.toList_empty, iff_of_false ?_ ?_⟩ fun h => absurd h (Nat.not_lt_zero _)
    · exact fun h => Bool.noConfusion h
    · exact Nat.not_lt_zero _
  | cons c cs =>
    simp only [isEmpty_cons, Bool.false_eq_true, if_false]
    split
    · rename_i hle
      refine iff_of_true ⟨?_, ?_⟩ fun hlt => absurd hle (Nat.not_le.mpr hlt)
      · rw [getD_some, String.toList_ofList, Nat.min_eq_right hle, take_length]
      · rw [getD_some, String.toList_ofList]
        exact iff_of_false (fun h => Bool.noConfusion h) (Nat.lt_irrefl _)
    · rename_i hgt
      have hlt := Nat.lt_of_not_le hgt
      have hkept := @kept_eq_take_iff limitChars (c :: cs) 0 hlt.le
      have hlen := kept_length limitChars (c :: cs) 0
      rw [Nat.sub_zero] at hkept hlen
      rw [getD_some, String.toList_ofList, slice_scanBytes, Nat.min_eq_left hlt.le]
      constructor
      · rintro ⟨hpre, -⟩ _
        exact hkept.mp hpre
      · intro hascii
        exact ⟨hkept.mpr (hascii hlt), iff_of_true rfl (by omega)⟩

/-- The bounds of a record's text and of compacted words are honest exactly where bytes and characters
agree near the cut. -/
theorem text_bounds_honest_iff (record : ConversationNarrativeRecord) (text : String) (limitChars : Nat) :
    (BoundedHonest record ↔ RecordFits record) ∧
      (CompactHonest text limitChars ↔
        (limitChars < (compact text).length → AsciiBefore limitChars (compact text))) :=
  ⟨boundedHonest_iff record, compactHonest_iff text limitChars⟩

/-- A text of two-byte characters that just does not reach the limit. -/
def accentedRecord : ConversationNarrativeRecord where
  seq := 1
  kind := .message
  role := some "user"
  inputOrigin := none
  requestRootId := none
  text := some (String.ofList (replicate 2001 'é'))
  excerpt := none
  eventRefs := []
  sourceRefs := []

/-- It is shown in full and marked as truncated all the same. -/
theorem accentedRecord_marked :
    ¬ ((∀ record, BoundedHonest record) ∧ ∀ text limitChars, CompactHonest text limitChars) := by
  rintro ⟨h, -⟩
  have hfits := (boundedHonest_iff accentedRecord).mp (h accentedRecord) _ rfl
  have hbts : ∀ n, utf8Bytes (replicate n 'é') = 2 * n := by
    intro n
    have hsize : Char.utf8Size 'é' = 2 := by decide
    rw [utf8Bytes, map_replicate, sum_replicate_nat, hsize, Nat.mul_comm]
  rw [String.toList_ofList, length_replicate] at hfits
  rcases hfits.1 (by decide) with hnone | hnil | hlt
  · exact absurd hnone (some_ne_none _)
  · exact absurd (congrArg List.length hnil) (by rw [length_replicate]; decide)
  · rw [dropLast_replicate, hbts] at hlt
    exact absurd hlt (by decide)

end Wardian.Archive
