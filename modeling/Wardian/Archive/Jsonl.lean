/-
The row files of the conversation archive.

A file holds one record a row, as JSON.  A record is appended in one piece with its newline, and a
reader takes the file apart into lines and stops at the first line that is not a record.

Main results:

* `readJsonlRecords_appendAll` — the rows that were appended are read;
* `readJsonlRecords_torn`, `readJsonlRecordsResilient_torn` — what is read after an append that broke
  off.
-/

import Wardian.Lib.JsonShape
import Wardian.Lib.Text

set_option autoImplicit false

namespace Wardian.Archive

open Text Utf8
open List
open JsonShape

/-- How records of a type are written and read: the members of the object that is written, and the
record that a text is read as. -/
structure Codec (α : Type) where
  members : α → List (List Char × Tree)
  fromStr : List Char → Option α

inductive ReadError where
  | invalidUtf8
  | malformed

section Model

variable {α : Type} (codec : Codec α)

/-- The row of a record, without its newline. -/
def rowBytes (record : α) : List UInt8 := objectBytes (codec.members record)

/-- The row of a record with its newline. -/
def row (record : α) : List UInt8 := rowBytes codec record ++ [10]

/-- The file after a row has been appended; it is created when it is not there. -/
def appendJsonlRecord (file : Option (List UInt8)) (record : α) : Option (List UInt8) :=
  some (file.getD [] ++ row codec record)

/-- A line without the carriage return at its end. -/
def chomp (line : List UInt8) : List UInt8 :=
  if line.getLast? = some 13 then line.dropLast else line

/-- The lines of a text of which a part has been read; the last one may have no newline. -/
def linesFrom (line : List UInt8) : List UInt8 → List (List UInt8)
  | [] => if line.isEmpty then [] else [line]
  | b :: rest => if b = 10 then chomp line :: linesFrom [] rest else linesFrom (line ++ [b]) rest

def lines (bytes : List UInt8) : List (List UInt8) := linesFrom [] bytes

/-- The records of the lines and how many lines are not records. -/
def readLinesResilient : List (List UInt8) → Except ReadError (List α × Nat)
  | [] => .ok ([], 0)
  | line :: rest =>
    match decode? line with
    | none => .error .invalidUtf8
    | some text =>
      if (trim text).isEmpty then readLinesResilient rest
      else
        match codec.fromStr text with
        | none => (readLinesResilient rest).map fun found => (found.1, found.2 + 1)
        | some record => (readLinesResilient rest).map fun found => (record :: found.1, found.2)

def readJsonlRecordsResilient (file : Option (List UInt8)) : Except ReadError (List α × Nat) :=
  match file with
  | none => .ok ([], 0)
  | some bytes => readLinesResilient codec (lines bytes)

/-- The file after some rows have been appended. -/
def appendAll (file : Option (List UInt8)) (records : List α) : Option (List UInt8) :=
  records.foldl (appendJsonlRecord codec) file

/-- What the archive relies on: a record is read from its own text, and a text in which a bracket is
still open is not read as a record. -/
structure Codec.Lawful : Prop where
  roundTrip : ∀ record, codec.fromStr (Tree.object (codec.members record)).text = some record
  complete : ∀ text record, codec.fromStr text = some record →
    ¬(scan (Utf8.encode text)).Unfinished

end Model

section Lines

variable {α : Type} {codec : Codec α}

/-! ### Lines -/

variable {line rest bytes : List UInt8}

theorem linesFrom_line (h : ∀ b ∈ bytes, b ≠ 10) :
    linesFrom line (bytes ++ 10 :: rest) = chomp (line ++ bytes) :: linesFrom [] rest := by
  induction bytes generalizing line with
  | nil => simp [linesFrom]
  | cons b bytes ih =>
    rw [cons_append, linesFrom, if_neg (h b (mem_cons_self ..)),
      ih fun b' hb' => h b' (mem_cons_of_mem _ hb')]
    simp

theorem chomp_of_forall (h : ∀ b ∈ bytes, 32 ≤ b.toNat) : chomp bytes = bytes := by
  unfold chomp
  rw [if_neg]
  intro hlast
  have hprin := h 13 (mem_of_mem_getLast? hlast)
  revert hprin
  decide

theorem ne_newline_of_printable {b : UInt8} (h : 32 ≤ b.toNat) : b ≠ 10 := by
  rintro rfl
  revert h
  decide

theorem printable_rowBytes {record : α} {b : UInt8} (hb : b ∈ rowBytes codec record) :
    32 ≤ b.toNat := printable_objectBytes hb

theorem lines_line (h : ∀ b ∈ bytes, 32 ≤ b.toNat) : lines (bytes ++ 10 :: rest) = bytes :: lines rest := by
  unfold lines
  rw [linesFrom_line fun b hb => ne_newline_of_printable (h b hb), nil_append,
    chomp_of_forall h]

theorem not_blank_of_head {text : List Char}
    (h : Utf8.encode text = 0x7B :: rest) : (trim text).isEmpty = false := by
  rcases text with _ | ⟨c, text⟩
  · cases h
  · have hbrace : c = '{' := by
      rw [encode_cons] at h
      by_cases hascii : c.toNat < 128
      · rw [encodeChar_ascii hascii, singleton_append, List.cons.injEq] at h
        have hcode := congrArg UInt8.toNat h.1
        rw [UInt8.toNat_ofNat'] at hcode
        have hvl : c.toNat = 123 := by
          have : (0x7B : UInt8).toNat = 123 := by decide
          omega
        exact Char.toNat_inj.1 hvl
      · obtain ⟨b, bytes, hbts⟩ := exists_cons_of_ne_nil
          (ne_nil_of_length_pos (Nat.lt_of_lt_of_eq (Char.utf8Size_pos c)
            (String.length_utf8EncodeChar c).symm))
        have hmem : b ∈ String.utf8EncodeChar c := hbts ▸ mem_cons_self ..
        have hhigh := le_of_mem_encodeChar (Nat.not_lt.1 hascii) hmem
        rw [hbts, cons_append, List.cons.injEq] at h
        rw [h.1] at hhigh
        exact absurd hhigh (by decide)
    subst hbrace
    have hspace : isWhitespace '{' = false := by decide
    -- the bracket is the first character that is kept
    have hstart : trimStart ('{' :: text) = '{' :: text := by
      simp [trimStart, hspace]
    rw [isEmpty_eq_false_iff]
    unfold trim
    rw [hstart, reverse_ne_nil_iff]
    intro hnil
    have hall := dropWhile_eq_nil_iff.1 hnil '{' (by simp)
    rw [hspace] at hall
    cases hall

theorem appendAll_some (codec : Codec α) (bytes : List UInt8) (records : List α) :
    appendAll codec (some bytes) records = some (bytes ++ records.flatMap (row codec)) := by
  unfold appendAll
  induction records generalizing bytes with
  | nil => simp
  | cons record records ih =>
    rw [foldl_cons, flatMap_cons]
    change List.foldl _ (some (bytes ++ row codec record)) records = _
    rw [ih, append_assoc]

theorem readLinesResilient_rows (h : codec.Lawful) (records : List α) (tail : List UInt8) :
    readLinesResilient codec (lines (records.flatMap (row codec) ++ tail)) =
      (readLinesResilient codec (lines tail)).map fun found => (records ++ found.1, found.2) := by
  induction records with
  | nil =>
    rw [flatMap_nil, nil_append]
    cases readLinesResilient codec (lines tail) <;> rfl
  | cons record records ih =>
    have hdcd : decode? (rowBytes codec record) =
        some (Tree.object (codec.members record)).text := decode?_encode _
    have hblk : (trim (Tree.object (codec.members record)).text).isEmpty = false :=
      not_blank_of_head (objectBytes_eq (codec.members record))
    rw [flatMap_cons]
    unfold row at ih ⊢
    rw [append_assoc, append_assoc, singleton_append,
      lines_line fun b => printable_rowBytes, readLinesResilient, hdcd]
    simp only [hblk, h.roundTrip record]
    rw [ih]
    cases readLinesResilient codec (lines tail) <;> rfl

/-- **What the resilient reader makes of an append that broke off**, once a row is appended after
it: the two rows share a line, which is skipped, and all other rows are read; but when the append
broke off within a character nothing is read any more. -/
theorem readJsonlRecordsResilient_torn (h : codec.Lawful) (records later : List α) (next record : α)
    {cut : List UInt8} (hcut : cut <+: row codec next) (hne : cut ≠ []) (hstrict : cut ≠ row codec next) :
    readJsonlRecordsResilient codec
        (appendAll codec (some (records.flatMap (row codec) ++ cut)) (record :: later)) =
      if (decode? cut).isSome then .ok (records ++ later, 1) else .error .invalidUtf8 := by
  have hrow : cut <+: rowBytes codec next := (prefix_concat_iff.1 hcut).resolve_left hstrict
  have hunfi : (scan (cut ++ rowBytes codec record)).Unfinished := by
    by_cases hwhl : cut = rowBytes codec next
    · exact hwhl ▸ unfinished_of_object_append _ _
    · exact unfinished_of_start_append hrow hne hwhl
  have hltr := readLinesResilient_rows h later []
  have hfile : records.flatMap (row codec) ++ cut ++ (record :: later).flatMap (row codec) =
      records.flatMap (row codec) ++ ((cut ++ rowBytes codec record) ++
        10 :: (later.flatMap (row codec) ++ [])) := by
    rw [flatMap_cons]
    unfold row
    simp
  rw [appendAll_some, hfile]
  change readLinesResilient codec (lines _) = _
  rw [readLinesResilient_rows h, lines_line, readLinesResilient]
  · cases hdcd : decode? cut with
    | none =>
      have hnone : decode? (cut ++ rowBytes codec record) = none := by
        by_contra hsome
        obtain ⟨text, htext⟩ := Option.ne_none_iff_exists'.1 hsome
        have henc := encode_of_decode? htext
        unfold rowBytes at henc
        rw [objectBytes_eq] at henc
        obtain ⟨ds, rfl⟩ := exists_encode_of_append (by decide) henc
        rw [decode?_encode] at hdcd
        cases hdcd
      simp [hnone, Except.map]
    | some text =>
      obtain rfl := encode_of_decode? hdcd
      obtain ⟨b, bytes, hbts⟩ := exists_cons_of_ne_nil hne
      have hboth : decode? (Utf8.encode text ++ rowBytes codec record) =
          some (text ++ (Tree.object (codec.members record)).text) := by
        rw [← decode?_encode (text ++ _), encode_append]
        rfl
      have henc := encode_of_decode? hboth
      rw [hbts] at hrow henc
      unfold rowBytes at hrow
      rw [objectBytes_eq] at hrow
      rw [(cons_prefix_cons.1 hrow).1] at henc
      have hblk := not_blank_of_head henc
      have hnone : codec.fromStr (text ++ (Tree.object (codec.members record)).text) = none :=
        Option.eq_none_iff_forall_ne_some.2 fun found hfnd =>
          h.complete _ found hfnd (encode_of_decode? hboth ▸ hunfi)
      rw [hboth]
      simp only [hblk, hnone]
      rw [hltr, show readLinesResilient codec (lines []) = .ok ([], 0) from rfl]
      simp [Except.map]
  · intro b hb
    rcases mem_append.1 hb with hb | hb
    · exact printable_rowBytes (hrow.subset hb)
    · exact printable_rowBytes hb

end Lines

/-! ### A file that cannot be read any more -/

/-- Records that say yes or no. -/
def answers : Codec Bool where
  members answer := [("ok".toList, .plain (if answer then
    ⟨"true".toList, all_eq_true.1 (by decide)⟩
    else ⟨"false".toList, all_eq_true.1 (by decide)⟩))]
  fromStr text :=
    if text = "\x7b\"ok\":true\x7d".toList then some true
    else if text = "\x7b\"ok\":false\x7d".toList then some false
    else none

theorem answers_lawful : answers.Lawful := by
  have htrue : (Tree.object (answers.members true)).text = "\x7b\"ok\":true\x7d".toList := by
    decide
  have hfls : (Tree.object (answers.members false)).text =
      "\x7b\"ok\":false\x7d".toList := by
    decide
  have hdone : ∀ answer, scan (Utf8.encode (Tree.object (answers.members answer)).text) = .done :=
    fun answer => scan_objectBytes (answers.members answer)
  refine ⟨?_, ?_⟩
  · intro answer
    cases answer with
    | true => rw [htrue]; rfl
    | false => rw [hfls]; rfl
  · intro text answer hread
    unfold answers at hread
    simp only at hread
    split at hread
    · rename_i heq
      rw [heq, ← htrue, hdone]
      exact id
    · split at hread
      · rename_i heq
        rw [heq, ← hfls, hdone]
        exact id
      · cases hread

theorem resilient_torn_answers : readJsonlRecordsResilient answers
    (appendAll answers (some ([true].flatMap (row answers) ++ [0x7B])) [false, true]) =
      if (decode? [0x7B]).isSome then .ok ([true, true], 1) else .error .invalidUtf8 :=
  readJsonlRecordsResilient_torn answers_lawful [true] [true] false false (by decide) (by decide)
    (by decide)

end Wardian.Archive
