/-
Texts that are cut behind their terminators.

A text is a list; some of its elements are terminators.  Cutting it behind every one of them gives
its lines, and what is left of it when the last line has no terminator yet.  A line stands at a
place of the text, and the lines between two places that do not cut one are known from the text
alone.

Main results:

* `Lines.splitInclusive_flatten_append` — lines are cut as they were put together;
* `Lines.forall_isLine` — a terminated text is nothing but lines;
* `Lines.mem_places` — the places of lines between two places.
-/

import Mathlib.Data.List.Basic

set_option autoImplicit false

namespace Lines

open List

variable {α β : Type} {isEnd : α → Bool}

/-! ### Cutting -/

/-- One terminator, and it is the last element. -/
def IsLine (isEnd : α → Bool) (line : List α) : Prop :=
  ∃ body last, line = body ++ [last] ∧ isEnd last = true ∧ ∀ x ∈ body, isEnd x = false

/-- There is nothing, or a terminator is the last element. -/
def Terminated (isEnd : α → Bool) (xs : List α) : Prop := ∀ last ∈ xs.getLast?, isEnd last = true

/-- The pieces of a text: its lines, and what stands behind the last one. -/
def splitInclusive (isEnd : α → Bool) : List α → List (List α)
  | [] => []
  | x :: xs =>
    if isEnd x then [x] :: splitInclusive isEnd xs
    else
      match splitInclusive isEnd xs with
      | [] => [[x]]
      | piece :: pieces => (x :: piece) :: pieces

theorem flatten_splitInclusive (isEnd : α → Bool) (xs : List α) : (splitInclusive isEnd xs).flatten = xs := by
  induction xs with
  | nil => rfl
  | cons x xs ih =>
    unfold splitInclusive
    split
    · rw [flatten_cons, ih]
      rfl
    · split
      · rename_i hnil
        rw [hnil] at ih
        rw [← ih]
        rfl
      · rename_i piece pieces hcons
        rw [hcons, flatten_cons] at ih
        rw [flatten_cons, cons_append, ih]

theorem IsLine.ne_nil {line : List α} (h : IsLine isEnd line) : line ≠ [] := by
  obtain ⟨body, last, rfl, -⟩ := h
  simp

variable {line : List α}

theorem IsLine.length_pos (h : IsLine isEnd line) : 0 < line.length :=
  length_pos_iff.2 h.ne_nil

theorem splitInclusive_line (h : IsLine isEnd line) (xs : List α) :
    splitInclusive isEnd (line ++ xs) = line :: splitInclusive isEnd xs := by
  obtain ⟨body, last, rfl, hlast, hbody⟩ := h
  induction body with
  | nil =>
    rw [nil_append, singleton_append, splitInclusive, if_pos hlast]
  | cons x body ih =>
    have htail := ih fun y hy => hbody y (mem_cons_of_mem _ hy)
    have hx : isEnd x = false := hbody x (mem_cons_self ..)
    rw [cons_append, cons_append, splitInclusive, hx, htail]
    rfl

/-- **Lines are cut as they were put together.** -/
theorem splitInclusive_flatten_append {lines : List (List α)} (h : ∀ line ∈ lines, IsLine isEnd line)
    (xs : List α) : splitInclusive isEnd (lines.flatten ++ xs) = lines ++ splitInclusive isEnd xs := by
  induction lines with
  | nil => rfl
  | cons line lines ih =>
    rw [flatten_cons, append_assoc, splitInclusive_line (h line (mem_cons_self ..)),
      ih fun l hl => h l (mem_cons_of_mem _ hl), cons_append]

theorem splitInclusive_flatten {lines : List (List α)} (h : ∀ line ∈ lines, IsLine isEnd line) :
    splitInclusive isEnd lines.flatten = lines := by
  have happ := splitInclusive_flatten_append h []
  rwa [append_nil, show splitInclusive isEnd [] = [] from rfl, append_nil] at happ

variable {x : α} {xs : List α}

theorem Terminated.of_cons (h : Terminated isEnd (x :: xs)) : Terminated isEnd xs := by
  intro last hlast
  refine h last ?_
  cases xs with
  | nil => cases hlast
  | cons y ys => exact hlast

/-- **A terminated text is nothing but lines.** -/
theorem forall_isLine (h : Terminated isEnd xs) : ∀ line ∈ splitInclusive isEnd xs, IsLine isEnd line := by
  induction xs with
  | nil => intro line hline; cases hline
  | cons x xs ih =>
    intro line hline
    unfold splitInclusive at hline
    split at hline
    · rename_i hend
      rcases mem_cons.1 hline with rfl | hline
      · exact ⟨[], x, rfl, hend, by simp⟩
      · exact ih h.of_cons line hline
    · rename_i hend
      split at hline
      · rename_i hnil
        -- nothing follows, so the element itself has to be the terminator
        have hemp : xs = [] := by
          rw [← flatten_splitInclusive isEnd xs, hnil]
          rfl
        subst hemp
        exact absurd (h x rfl) hend
      · rename_i piece pieces hcons
        rw [hcons] at ih
        rcases mem_cons.1 hline with rfl | hline
        · obtain ⟨body, last, rfl, hlast, hbody⟩ := ih h.of_cons piece (mem_cons_self ..)
          refine ⟨x :: body, last, rfl, hlast, ?_⟩
          intro y hy
          rcases mem_cons.1 hy with rfl | hy
          · exact Bool.eq_false_iff.2 hend
          · exact hbody y hy
        · exact ih h.of_cons line (mem_cons_of_mem _ hline)

theorem terminated_flatten {lines : List (List α)} (h : ∀ line ∈ lines, IsLine isEnd line) :
    Terminated isEnd lines.flatten := by
  induction lines with
  | nil => intro last hlast; cases hlast
  | cons line lines ih =>
    intro last hlast
    have hrest := ih fun l hl => h l (mem_cons_of_mem _ hl)
    rw [flatten_cons, getLast?_append] at hlast
    cases hlns : lines.flatten.getLast? with
    | some other =>
      rw [hlns] at hlast
      obtain rfl := Option.some.inj hlast
      exact hrest other hlns
    | none =>
      rw [hlns] at hlast
      obtain ⟨body, stop, rfl, hstop, -⟩ := h line (mem_cons_self ..)
      rw [Option.none_or, getLast?_concat] at hlast
      obtain rfl := Option.some.inj hlast
      exact hstop

variable {rest : List α}

theorem IsLine.eq_nil_of_append (h : IsLine isEnd line)
    (happ : IsLine isEnd (line ++ rest)) : rest = [] := by
  have hspl := splitInclusive_line h rest
  have hself := splitInclusive_line happ []
  rw [append_nil, hspl] at hself
  have hnil := (List.cons.inj hself).2
  rw [show splitInclusive isEnd [] = [] from rfl] at hnil
  rw [← flatten_splitInclusive isEnd rest, hnil]
  rfl

/-! ### Lines of another alphabet -/

variable {isStop : β → Bool} {f : α → List β}

/-- A line whose elements are written in another alphabet is a line again. -/
theorem IsLine.flatMap (hend : ∀ x, isEnd x = true → ∃ b, f x = [b] ∧ isStop b = true)
    (hoth : ∀ x, isEnd x = false → ∀ b ∈ f x, isStop b = false) (h : IsLine isEnd line) :
    IsLine isStop (line.flatMap f) := by
  obtain ⟨body, last, rfl, hlast, hbody⟩ := h
  obtain ⟨b, hb, hstop⟩ := hend last hlast
  refine ⟨body.flatMap f, b, ?_, hstop, ?_⟩
  · rw [flatMap_append, flatMap_singleton, hb]
  · intro c hc
    obtain ⟨x, hx, hcx⟩ := mem_flatMap.1 hc
    exact hoth x (hbody x hx) c hcx

theorem Terminated.of_flatMap (hne : ∀ x, f x ≠ [])
    (hoth : ∀ x, isEnd x = false → ∀ b ∈ f x, isStop b = false)
    (h : Terminated isStop (xs.flatMap f)) : Terminated isEnd xs := by
  intro last hlast
  obtain ⟨body, rfl⟩ := getLast?_eq_some_iff.1 hlast
  by_contra hopen
  have hstop : isStop ((f last).getLast (hne last)) = true := by
    refine h _ ?_
    rw [flatMap_append, flatMap_singleton, getLast?_append,
      getLast?_eq_some_getLast (hne last)]
    rfl
  rw [hoth last (Bool.eq_false_iff.2 hopen) _ (getLast_mem _)] at hstop
  cases hstop

/-- A terminated text can be cut before or after it is written in another alphabet. -/
theorem splitInclusive_flatMap (hend : ∀ x, isEnd x = true → ∃ b, f x = [b] ∧ isStop b = true)
    (hoth : ∀ x, isEnd x = false → ∀ b ∈ f x, isStop b = false) (h : Terminated isEnd xs) :
    splitInclusive isStop (xs.flatMap f) = (splitInclusive isEnd xs).map (·.flatMap f) := by
  have hlns : ∀ line ∈ (splitInclusive isEnd xs).map (·.flatMap f), IsLine isStop line := by
    intro line hline
    obtain ⟨piece, hpiece, rfl⟩ := mem_map.1 hline
    exact (forall_isLine h piece hpiece).flatMap hend hoth
  have hflat : ((splitInclusive isEnd xs).map (·.flatMap f)).flatten = xs.flatMap f := by
    have hsame := @flatMap_assoc _ _ _ (splitInclusive isEnd xs) id f
    rw [flatMap_id, flatten_splitInclusive] at hsame
    rw [hsame]
    rfl
  rw [← hflat, splitInclusive_flatten hlns]

/-! ### Places -/

/-- The part of a text between two places. -/
def slice (xs : List α) (start stop : Nat) : List α := (xs.drop start).take (stop - start)

/-- Where lines stand of which the first one begins at a place. -/
def places (start : Nat) : List (List α) → List (Nat × Nat)
  | [] => []
  | line :: lines => (start, start + line.length) :: places (start + line.length) lines

/-- A line may begin there: nothing stands before it, or a terminator does. -/
def Boundary (isEnd : α → Bool) (xs : List α) (start : Nat) : Prop :=
  ∀ last, 0 < start → xs[start - 1]? = some last → isEnd last = true

theorem length_slice {xs : List α} {start stop : Nat} (h : stop ≤ xs.length) :
    (slice xs start stop).length = stop - start := by
  rw [slice, length_take, length_drop]
  omega

variable {i stop start : Nat}

theorem getElem?_slice (xs : List α) (h : start + i < stop) : (slice xs start stop)[i]? = xs[start + i]? := by
  rw [slice, getElem?_take_of_lt (by omega), getElem?_drop]

theorem slice_append {xs : List α} {start stop : Nat} (h : stop ≤ xs.length) (ys : List α) :
    slice (xs ++ ys) start stop = slice xs start stop := by
  unfold slice
  rcases Nat.le_total start xs.length with hstart | hstart
  · rw [drop_append_of_le_length hstart, take_append_of_le_length]
    rw [length_drop]
    omega
  · rw [show stop - start = 0 by omega, take_zero, take_zero]

theorem slice_take_append {middle : Nat} (hstart : start ≤ middle)
    (hstop : middle ≤ stop) : slice xs start stop = slice xs start middle ++ slice xs middle stop := by
  unfold slice
  have hspl := take_append_drop (middle - start) ((xs.drop start).take (stop - start))
  rw [take_take, drop_take, drop_drop, Nat.min_eq_left (by omega)] at hspl
  rw [← hspl, show start + (middle - start) = middle by omega,
    show stop - start - (middle - start) = stop - middle by omega]

theorem places_bounds {lines : List (List α)} {place : Nat × Nat}
    (h : place ∈ places start lines) : start ≤ place.1 ∧ place.1 ≤ place.2 ∧
      place.2 ≤ start + lines.flatten.length := by
  induction lines generalizing start with
  | nil => cases h
  | cons line lines ih =>
    rw [flatten_cons, length_append]
    rcases mem_cons.1 h with rfl | h
    · exact ⟨Nat.le_refl _, Nat.le_add_right _ _, by simp only; omega⟩
    · obtain ⟨hstart, hord, hstop⟩ := ih h
      exact ⟨by omega, hord, by omega⟩

theorem pairwise_places (start : Nat) (lines : List (List α)) :
    (places start lines).Pairwise fun p q => p.2 ≤ q.1 := by
  induction lines generalizing start with
  | nil => exact .nil
  | cons line lines ih =>
    refine pairwise_cons.2 ⟨?_, ih _⟩
    intro place hplc
    exact (places_bounds hplc).1

theorem map_slice_places {lines : List (List α)} (h : xs.drop start = lines.flatten ++ rest) :
    (places start lines).map (fun p => slice xs p.1 p.2) = lines := by
  induction lines generalizing start with
  | nil => rfl
  | cons line lines ih =>
    rw [flatten_cons, append_assoc] at h
    have hfst : slice xs start (start + line.length) = line := by
      rw [slice, h, Nat.add_sub_cancel_left, take_left]
    have hrest : xs.drop (start + line.length) = lines.flatten ++ rest := by
      rw [← drop_drop, h, drop_left]
    rw [places, map_cons, hfst, ih hrest]

/-- A line that begins where another one begins ends where it ends. -/
theorem stop_eq_of_isLine {stop' : Nat} (hstop : stop ≤ xs.length) (hstop' : stop' ≤ xs.length)
    (h : IsLine isEnd (slice xs start stop)) (h' : IsLine isEnd (slice xs start stop')) : stop = stop' := by
  have hlen := h.length_pos
  have hlen' := h'.length_pos
  rw [length_slice hstop] at hlen
  rw [length_slice hstop'] at hlen'
  rcases Nat.le_total stop stop' with hle | hle
  · rw [slice_take_append (by omega) hle] at h'
    have hrest := congrArg List.length (h.eq_nil_of_append h')
    rw [length_slice hstop', length_nil] at hrest
    omega
  · rw [slice_take_append (by omega) hle] at h
    have hrest := congrArg List.length (h'.eq_nil_of_append h)
    rw [length_slice hstop, length_nil] at hrest
    omega

theorem IsLine.not_isEnd (h : IsLine isEnd (slice xs start stop)) (hstop : stop ≤ xs.length)
    (hstart : start ≤ i) (hi : i + 1 < stop) (hx : xs[i]? = some x) : isEnd x = false := by
  obtain ⟨body, last, hline, -, hbody⟩ := h
  have hlen := congrArg List.length hline
  rw [length_slice hstop, length_append, length_singleton] at hlen
  have hget := getElem?_slice xs (show start + (i - start) < stop by omega)
  rw [hline, getElem?_append_left (by omega), Nat.add_sub_cancel' hstart, hx] at hget
  exact hbody x (mem_of_getElem? hget)

theorem IsLine.getElem?_last (h : IsLine isEnd (slice xs start stop))
    (hstop : stop ≤ xs.length) : ∃ x, xs[stop - 1]? = some x ∧ isEnd x = true := by
  have hpos := h.length_pos
  obtain ⟨body, last, hline, hlast, -⟩ := h
  have hlen := congrArg List.length hline
  rw [length_slice hstop] at hpos
  rw [length_slice hstop, length_append, length_singleton] at hlen
  have hget := getElem?_slice xs (show start + body.length < stop by omega)
  rw [hline, getElem?_concat_length, show start + body.length = stop - 1 by omega] at hget
  exact ⟨last, hget.symm, hlast⟩

/-- **The places of lines** are those between the two places at which a line stands that begins at
the first one or behind a terminator. -/
theorem mem_places {p q : Nat} {lines : List (List α)} (hlns : ∀ line ∈ lines, IsLine isEnd line)
    (h : xs.drop start = lines.flatten ++ rest) (hstart : start ≤ xs.length) :
    (p, q) ∈ places start lines ↔ start ≤ p ∧ q ≤ start + lines.flatten.length ∧
      IsLine isEnd (slice xs p q) ∧ (p = start ∨ Boundary isEnd xs p) := by
  induction lines generalizing start with
  | nil =>
    refine ⟨nofun, ?_⟩
    rintro ⟨hp, hq, hline, -⟩
    have hlen := hline.length_pos
    rw [slice, length_take] at hlen
    simp only [flatten_nil, length_nil] at hq
    omega
  | cons line lines ih =>
    have hline := hlns line (mem_cons_self ..)
    have hrest : xs.drop (start + line.length) = lines.flatten ++ rest := by
      rw [flatten_cons, append_assoc] at h
      rw [← drop_drop, h, drop_left]
    have hfst : slice xs start (start + line.length) = line := by
      rw [flatten_cons, append_assoc] at h
      rw [slice, h, Nat.add_sub_cancel_left, take_left]
    have hfirstLine : IsLine isEnd (slice xs start (start + line.length)) := by
      rw [hfst]
      exact hline
    have hlen := congrArg List.length h
    rw [length_drop, length_append, flatten_cons, length_append] at hlen
    have hbnd : start + line.length ≤ xs.length := by omega
    have htail := ih (fun l hl => hlns l (mem_cons_of_mem _ hl)) hrest hbnd
    rw [places, mem_cons, htail, flatten_cons, length_append]
    constructor
    · rintro (heq | ⟨hp, hq, hslice, hbdry⟩)
      · obtain ⟨rfl, rfl⟩ := Prod.mk.inj heq
        exact ⟨Nat.le_refl _, by omega, hfirstLine, .inl rfl⟩
      · refine ⟨by omega, by omega, hslice, .inr ?_⟩
        rcases hbdry with rfl | hbdry
        · -- the line before has its terminator there
          intro last _ hlast
          obtain ⟨body, stop, hbody, hstop, -⟩ := hline
          have hins : start + body.length < start + line.length := by rw [hbody]; simp
          have hget := getElem?_slice xs hins
          rw [hfst, hbody, getElem?_concat_length] at hget
          have hsame : start + line.length - 1 = start + body.length := by rw [hbody]; simp
          rw [hsame, ← hget] at hlast
          exact Option.some.inj hlast ▸ hstop
        · exact hbdry
    · rintro ⟨hp, hq, hslice, hbdry⟩
      have hpq := hslice.length_pos
      rw [length_slice (by omega)] at hpq
      rcases Nat.eq_or_lt_of_le hp with rfl | hlt
      · left
        rw [stop_eq_of_isLine (by omega) hbnd hslice hfirstLine]
      · right
        have hend : Boundary isEnd xs p := by
          rcases hbdry with rfl | hbdry
          · omega
          · exact hbdry
        -- a terminator stands before the place, so it is not inside of the first line
        have hbeh : start + line.length ≤ p := by
          by_contra hins
          obtain ⟨last, hget⟩ : ∃ last, xs[p - 1]? = some last :=
            ⟨_, getElem?_eq_getElem (by omega)⟩
          have hno := hfirstLine.not_isEnd hbnd (by omega) (by omega) hget
          rw [hend _ (by omega) hget] at hno
          cases hno
        exact ⟨hbeh, by omega, hslice, .inr hend⟩

/-- The first line from a place on, when a terminator stands behind it. -/
theorem exists_isLine (hi : start ≤ i) (hx : xs[i]? = some x) (hend : isEnd x = true) :
    ∃ stop, start < stop ∧ stop ≤ i + 1 ∧ IsLine isEnd (slice xs start stop) := by
  have hget : (xs.drop start)[i - start]? = some x := by
    rw [getElem?_drop, Nat.add_sub_cancel' hi, hx]
  cases hfind : (xs.drop start).findIdx? isEnd with
  | none =>
    rw [findIdx?_eq_none_iff.1 hfind x (mem_of_getElem? hget)] at hend
    cases hend
  | some j =>
    obtain ⟨hj, hstop, hbef⟩ := findIdx?_eq_some_iff_getElem.1 hfind
    have hle : j ≤ i - start := by
      by_contra hlt
      obtain ⟨hbnd, hsame⟩ := List.getElem?_eq_some_iff.1 hget
      refine hbef (i - start) (by omega) ?_
      rwa [hsame]
    refine ⟨start + j + 1, by omega, by omega, (xs.drop start).take j, (xs.drop start)[j], ?_, hstop,
      ?_⟩
    · rw [slice, show start + j + 1 - start = j + 1 by omega, take_add_one,
        getElem?_eq_getElem hj, Option.toList_some]
    · intro y hy
      obtain ⟨k, hk, rfl⟩ := getElem_of_mem hy
      rw [length_take] at hk
      rw [getElem_take]
      exact Bool.eq_false_iff.2 (hbef k (by omega))

/-! ### The lines of a text -/

/-- A newline at the end is dropped, with a carriage return before it. -/
def stripLineEnding (line : List Char) : List Char :=
  match line.getLast? with
  | some '\n' =>
    match line.dropLast.getLast? with
    | some '\r' => line.dropLast.dropLast
    | _ => line.dropLast
  | _ => line

theorem stripLineEnding_concat {line : List Char} (h : line.getLast? ≠ some '\r') :
    stripLineEnding (line ++ ['\n']) = line := by
  unfold stripLineEnding
  rw [getLast?_concat, dropLast_concat]
  split
  · split
    · exact absurd ‹_› h
    · rfl
  · exact absurd rfl ‹_›

/-- `str::lines`. -/
def lines (text : List Char) : List (List Char) :=
  (splitInclusive (· == '\n') text).map stripLineEnding

end Lines
