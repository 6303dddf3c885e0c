/-
The name of a workspace.

The name of a workspace is normalised when a memory is saved and when the memories are listed.  A recall
normalises it and lists the memories of what comes out, so that it is normalised twice, and doing so
again does not always leave it as it is: without its last slashes a path may end with a blank or be
empty, and behind the prefix of a verbatim path there may be another one.

Main results:

* `normalizeWorkspace_twice_iff` — normalising twice is normalising once exactly for the settled names.
-/

import Wardian.Memory.Store

set_option autoImplicit false

namespace Wardian.Memory

open Text
open List

/-! ### The rule for Windows -/

/-- The path with forward slashes and small letters, without the prefix of a verbatim path. -/
def windowsPath (value : List Char) : List Char :=
  let normalized := toAsciiLower (value.map fun c => if c = '\\' then '/' else c)
  match stripPrefix "//?/unc/".toList normalized with
  | some path => '/' :: '/' :: path
  | none => (stripPrefix "//?/".toList normalized).getD normalized

/-- The root, or the root of a drive. -/
def isWindowsRoot (path : List Char) : Bool :=
  path = ['/'] ||
    match path with
    | [c, ':', '/'] => c.utf8Size = 1
    | _ => false

/-- The number of parts of a path that begins with two slashes. -/
def uncParts (path : List Char) : Option Nat :=
  (stripPrefix "//".toList path).map fun rest =>
    ((Text.split '/' rest).filter fun part => !part.isEmpty).length

def finishWindowsPath (path : List Char) : List Char :=
  if isWindowsRoot path then path
  else if uncParts (trimEndOf '/' path) = some 2 then trimEndOf '/' path ++ ['/']
  else trimEndOf '/' path

/-- The prefix of a verbatim path is dropped once. -/
def stripVerbatim (path : List Char) : List Char :=
  match stripPrefix "//?/unc/".toList path with
  | some rest => '/' :: '/' :: rest
  | none => (stripPrefix "//?/".toList path).getD path

variable {path : List Char}

theorem stripVerbatim_of_not_verbatim (h : ¬"//?/".toList <+: path) : stripVerbatim path = path := by
  have hshort : stripPrefix "//?/".toList path = none := by
    rw [stripPrefix, if_neg]
    rwa [ isPrefixOf_iff_prefix]
  have hlong : stripPrefix "//?/unc/".toList path = none := by
    rw [stripPrefix, if_neg]
    rw [ isPrefixOf_iff_prefix]
    intro hpre
    exact h (IsPrefix.trans (by decide) hpre)
  rw [stripVerbatim, hlong, hshort]
  rfl

theorem stripVerbatim_length (h : "//?/".toList <+: path) :
    (stripVerbatim path).length + 4 ≤ path.length := by
  have hlen : 4 ≤ path.length := h.length_le
  have hshort : stripPrefix "//?/".toList path = some (path.drop 4) := by
    rw [stripPrefix, if_pos ( isPrefixOf_iff_prefix.2 h)]
    rfl
  rw [stripVerbatim, stripPrefix]
  split
  next hlong =>
    split at hlong
    next hpre =>
      have hlen' : 8 ≤ path.length := ( isPrefixOf_iff_prefix.1 hpre).length_le
      rw [← Option.some.inj hlong, length_cons, length_cons, length_drop]
      have height : "//?/unc/".toList.length = 8 := rfl
      omega
    next => cases hlong
  next =>
    rw [hshort, Option.getD_some, length_drop]
    omega

theorem stripVerbatim_length_le (path : List Char) : (stripVerbatim path).length ≤ path.length := by
  by_cases h : "//?/".toList <+: path
  · have := stripVerbatim_length h
    omega
  · rw [stripVerbatim_of_not_verbatim h]

/-! ### Letters of a normalised path -/

/-- A character that the rule leaves as it is. -/
def Plain (c : Char) : Prop := c ≠ '\\' ∧ ('A' ≤ c && c ≤ 'Z') = false

theorem plain_lower (n : Fin 26) : Plain (Char.ofNat (n.val + 65 + 32)) := by
  revert n
  unfold Plain
  decide

variable {c : Char}

theorem plain_toAsciiLower (h : c ≠ '\\') :
    Plain (if 'A' ≤ c && c ≤ 'Z' then Char.ofNat (c.toNat + 32) else c) := by
  split
  next hupper =>
    rw [Bool.and_eq_true, decide_eq_true_eq, decide_eq_true_eq] at hupper
    have hlow : 65 ≤ c.toNat := hupper.1
    have hhigh : c.toNat ≤ 90 := hupper.2
    have hpln := plain_lower ⟨c.toNat - 65, by omega⟩
    have hsame : c.toNat - 65 + 65 + 32 = c.toNat + 32 := by omega
    rwa [hsame] at hpln
  next hoth => exact ⟨h, Bool.eq_false_iff.2 hoth⟩

variable {value : List Char}

theorem plain_of_mem_normalized
    (h : c ∈ toAsciiLower (value.map fun c => if c = '\\' then '/' else c)) : Plain c := by
  unfold toAsciiLower at h
  obtain ⟨d, hd, rfl⟩ := mem_map.1 h
  refine plain_toAsciiLower ?_
  obtain ⟨e, -, rfl⟩ := mem_map.1 hd
  split
  · decide
  · assumption

theorem windowsPath_of_plain (h : ∀ c ∈ path, Plain c) : windowsPath path = stripVerbatim path := by
  have hslash : (path.map fun c => if c = '\\' then '/' else c) = path := by
    refine (map_congr_left fun c hc => ?_).trans (map_id path)
    exact if_neg (h c hc).1
  have hlower : toAsciiLower path = path := toAsciiLower_eq_self fun c hc => (h c hc).2
  unfold windowsPath
  rw [hslash, hlower]
  rfl

theorem plain_of_mem_stripVerbatim (h : ∀ c ∈ path, Plain c) (hc : c ∈ stripVerbatim path) : Plain c := by
  have hdrop : ∀ n, c ∈ path.drop n → Plain c := fun n hmem => h c (mem_of_mem_drop hmem)
  unfold stripVerbatim stripPrefix at hc
  split at hc
  next rest hlong =>
    split at hlong
    next =>
      obtain rfl := Option.some.inj hlong
      rcases mem_cons.1 hc with rfl | hc
      · unfold Plain
        decide
      · rcases mem_cons.1 hc with rfl | hc
        · unfold Plain
          decide
        · exact hdrop _ hc
    next => cases hlong
  next =>
    split at hc
    · exact hdrop _ hc
    · exact h c hc

theorem plain_of_mem_windowsPath (h : c ∈ windowsPath value) : Plain c :=
  plain_of_mem_stripVerbatim (fun _ => plain_of_mem_normalized) h

/-! ### Normalising a second time -/

/-- The second time the rule for Windows is applied to what is left of the path after trimming. -/
theorem windowsPath_trim_finish (value : List Char) :
    windowsPath (trim (finishWindowsPath (windowsPath value))) =
      stripVerbatim (trim (finishWindowsPath (windowsPath value))) := by
  refine windowsPath_of_plain fun c hc => ?_
  have hfin := mem_of_mem_trim hc
  have hpln : ∀ c ∈ trimEndOf '/' (windowsPath value), Plain c := fun c hmem =>
    plain_of_mem_windowsPath ((trimEndOf_isPrefix '/' _).subset hmem)
  unfold finishWindowsPath at hfin
  split at hfin
  · exact plain_of_mem_windowsPath hfin
  · split at hfin
    · rcases mem_append.1 hfin with hmem | hmem
      · exact hpln c hmem
      · rw [mem_singleton.1 hmem]
        unfold Plain
        decide
    · exact hpln c hfin

/-- A path that is normalised at once by the rule for Windows. -/
def SettledPath (path : List Char) : Prop :=
  if isWindowsRoot path then trim path = path
  else
    let stem := trimEndOf '/' path
    stem ≠ [] ∧ ¬"//?/".toList <+: stem ∧ (uncParts stem = some 2 ∨ trim stem = stem)

variable {stem : List Char}

theorem not_root_of_stem (h : trimEndOf '/' stem = stem) : isWindowsRoot stem = false := by
  rw [Bool.eq_false_iff]
  intro hroot
  unfold isWindowsRoot at hroot
  rw [Bool.or_eq_true, decide_eq_true_eq] at hroot
  rcases hroot with rfl | hdrive
  · exact not_ends_of_trimEndOf [] h (nil_append _).symm
  · split at hdrive
    next c =>
      have hends : [c, ':', '/'] = [c, ':'] ++ ['/'] := rfl
      exact not_ends_of_trimEndOf [c, ':'] h hends
    next => cases hdrive

theorem finish_eq_trimEndOf (hstem : trimEndOf '/' stem = stem)
    (h : finishWindowsPath path = stem) : trimEndOf '/' path = stem := by
  unfold finishWindowsPath at h
  split at h
  · rw [h, hstem]
  · split at h
    · exact absurd h.symm (not_ends_of_trimEndOf _ hstem)
    · exact h

theorem finish_of_stem (hstem : trimEndOf '/' stem = stem)
    (hprs : uncParts stem ≠ some 2) : finishWindowsPath stem = stem := by
  have hroot : ¬isWindowsRoot stem = true := by
    rw [not_root_of_stem hstem]
    exact Bool.false_ne_true
  rw [finishWindowsPath, if_neg hroot, hstem, if_neg hprs]

theorem finish_length_le (path : List Char) : (finishWindowsPath path).length ≤ path.length + 1 := by
  have hlen := (trimEndOf_isPrefix '/' path).length_le
  unfold finishWindowsPath
  split
  · omega
  · split
    · rw [length_append, length_singleton]
      omega
    · omega

theorem root_cases (h : isWindowsRoot path = true) : path = ['/'] ∨ ∃ c, path = [c, ':', '/'] := by
  unfold isWindowsRoot at h
  rw [Bool.or_eq_true, decide_eq_true_eq] at h
  rcases h with h | h
  · exact .inl h
  · split at h
    next c => exact .inr ⟨c, rfl⟩
    next => cases h

theorem unc_cases {n : Nat} (h : uncParts stem = some n) : ∃ rest, stem = '/' :: '/' :: rest := by
  unfold uncParts stripPrefix at h
  split at h
  next hpre =>
    obtain ⟨rest, hrest⟩ := isPrefixOf_iff_prefix.1 hpre
    exact ⟨rest, hrest.symm⟩
  next => cases h

theorem finish_of_share (hstem : trimEndOf '/' stem = stem)
    (hprs : uncParts stem = some 2) : finishWindowsPath (stem ++ ['/']) = stem ++ ['/'] := by
  have hroot : ¬isWindowsRoot (stem ++ ['/']) = true := by
    intro hroot
    obtain ⟨rest, hrest⟩ := unc_cases hprs
    rw [hrest] at hroot
    rcases root_cases hroot with h | ⟨c, h⟩
    · cases h
    · cases h
  rw [finishWindowsPath, if_neg hroot, trimEndOf_concat, hstem, if_pos hprs]

theorem not_verbatim_share (hprs : uncParts stem = some 2)
    (h : ¬"//?/".toList <+: stem) : ¬"//?/".toList <+: stem ++ ['/'] := by
  intro hpre
  rcases prefix_concat_iff.1 hpre with heq | hstem
  · have hshare : stem = ['/', '/', '?'] := by
      have hdrop := congrArg dropLast heq
      rw [dropLast_concat] at hdrop
      exact hdrop.symm
    rw [hshare] at hprs
    exact absurd hprs (by decide)
  · exact h hstem

theorem finish_twice_iff (path : List Char) :
    (trim (finishWindowsPath path) ≠ [] ∧
        finishWindowsPath (stripVerbatim (trim (finishWindowsPath path))) =
          finishWindowsPath path) ↔
      SettledPath path := by
  obtain ⟨stem, hdef⟩ : ∃ stem, stem = trimEndOf '/' path := ⟨_, rfl⟩
  have hstem : trimEndOf '/' stem = stem := by rw [hdef, trimEndOf_idem]
  unfold SettledPath
  by_cases hroot : isWindowsRoot path = true
  · have hfin : finishWindowsPath path = path := if_pos hroot
    rw [if_pos hroot, hfin]
    constructor
    · rintro ⟨-, htwice⟩
      rcases root_cases hroot with rfl | ⟨c, rfl⟩
      · decide
      · by_cases hblk : isWhitespace c = true
        · -- the blank that stands for the drive is dropped
          have htrim : trim [c, ':', '/'] = [':', '/'] := by
            have hstart : trimStart [c, ':', '/'] = [':', '/'] := by
              rw [trimStart, dropWhile_cons_of_pos hblk]
              decide
            rw [trim, hstart]
            decide
          rw [htrim] at htwice
          have hstri : finishWindowsPath (stripVerbatim [':', '/']) = [':'] := by decide
          rw [hstri] at htwice
          cases htwice
        · exact trim_of_ends [':'] (Bool.eq_false_iff.2 hblk) (by decide)
    · intro htrim
      have hshort : ¬"//?/".toList <+: path := by
        intro hpre
        have hlen : 4 ≤ path.length := hpre.length_le
        rcases root_cases hroot with rfl | ⟨c, rfl⟩
        · exact absurd hlen (by decide)
        · rw [length_cons, length_cons, length_cons, length_nil] at hlen
          omega
      rw [htrim, stripVerbatim_of_not_verbatim hshort, hfin]
      refine ⟨?_, rfl⟩
      rintro rfl
      exact absurd hroot (by decide)
  · rw [if_neg hroot, ← hdef]
    by_cases hprs : uncParts stem = some 2
    · have hfin : finishWindowsPath path = stem ++ ['/'] := by
        rw [finishWindowsPath, if_neg hroot, ← hdef, if_pos hprs]
      obtain ⟨rest, hrest⟩ := unc_cases hprs
      have htrim : trim (stem ++ ['/']) = stem ++ ['/'] := by
        rw [hrest]
        exact trim_of_ends ('/' :: rest) (by decide) (by decide)
      rw [hfin, htrim]
      constructor
      · rintro ⟨-, htwice⟩
        refine ⟨by rw [hrest]; exact cons_ne_nil _ _, ?_, .inl hprs⟩
        intro hpre
        have hlen := stripVerbatim_length (hpre.trans (prefix_append stem ['/']))
        have hle := finish_length_le (stripVerbatim (stem ++ ['/']))
        rw [htwice] at hle
        omega
      · rintro ⟨-, hpre, -⟩
        rw [stripVerbatim_of_not_verbatim (not_verbatim_share hprs hpre),
          finish_of_share hstem hprs]
        exact ⟨by simp, rfl⟩
    · have hfin : finishWindowsPath path = stem := by
        rw [finishWindowsPath, if_neg hroot, ← hdef, if_neg hprs]
      rw [hfin]
      have hnot : ¬uncParts stem = some 2 := hprs
      constructor
      · rintro ⟨hne, htwice⟩
        have htrim := finish_eq_trimEndOf hstem htwice
        have hlen : stem.length ≤ (stripVerbatim (trim stem)).length := by
          have hle := (trimEndOf_isPrefix '/' (stripVerbatim (trim stem))).length_le
          rwa [htrim] at hle
        have hle := stripVerbatim_length_le (trim stem)
        have hsame : trim stem = stem := trim_eq_of_length (by omega)
        rw [hsame] at hne hlen
        refine ⟨hne, ?_, .inr hsame⟩
        intro hpre
        have := stripVerbatim_length hpre
        omega
      · rintro ⟨hne, hpre, hor⟩
        have hsame := hor.resolve_left hprs
        rw [hsame, stripVerbatim_of_not_verbatim hpre, finish_of_stem hstem hprs]
        exact ⟨hne, rfl⟩

/-! ### Names of workspaces -/

/-- The rule for other systems drops the slashes at the end. -/
def unixPath (value : List Char) : List Char :=
  if value = ['/'] || value = ['/', '/'] then value else trimEndOf '/' value

/-- A name that normalising changes once at most: what is left of it is neither empty nor white space at
an end, and has no prefix that would be dropped. -/
def SettledName (windows : Bool) (workspace : String) : Prop :=
  let value := trim workspace.toList
  value = [] ∨
    if windows then SettledPath (windowsPath value)
    else
      value = ['/'] ∨ value = ['/', '/'] ∨
        (trimEndOf '/' value ≠ [] ∧ trim (trimEndOf '/' value) = trimEndOf '/' value)

def normalizePath (windows : Bool) (value : List Char) : List Char :=
  if windows then normalizeWindowsPath value else unixPath value

theorem trimmed_eq_empty_iff (workspace : String) :
    trimmed workspace = "" ↔ trim workspace.toList = [] := by
  unfold trimmed
  constructor
  · intro h
    have hlist := congrArg String.toList h
    rwa [String.toList_ofList] at hlist
  · intro h
    rw [h]

theorem normalizeWorkspaceFor_some (windows : Bool) (workspace : String) :
    normalizeWorkspaceFor (some workspace) windows =
      if trim workspace.toList = [] then none
      else some (String.ofList (normalizePath windows (trim workspace.toList))) := by
  unfold normalizeWorkspaceFor normalizeOptional
  rw [Option.map_some, Option.filter_some]
  by_cases hemp : trim workspace.toList = []
  · have hblk := (trimmed_eq_empty_iff workspace).2 hemp
    rw [if_pos hemp, if_neg (by simpa using hblk)]
    rfl
  · have hblk : trimmed workspace ≠ "" := fun h => hemp ((trimmed_eq_empty_iff workspace).1 h)
    rw [if_neg hemp, if_pos (by simpa using hblk), Option.map_some]
    refine congrArg some ?_
    have hlist : (trimmed workspace).toList = trim workspace.toList := String.toList_ofList
    unfold normalizePath
    cases windows with
    | true =>
      rw [if_pos rfl, if_pos rfl, hlist]
    | false =>
      have hroot : ∀ root : String, trimmed workspace = root ↔ trim workspace.toList = root.toList := by
        intro root
        rw [← hlist, String.toList_inj]
      rw [if_neg Bool.false_ne_true, if_neg Bool.false_ne_true, hlist, unixPath]
      have hone := hroot "/"
      have htwo := hroot "//"
      by_cases hslash : trimmed workspace = "/" ∨ trimmed workspace = "//"
      · rw [if_pos (by simpa using hslash), if_pos (by rw [← hlist]; simpa [String.ext_iff] using hslash)]
        exact (String.ofList_toList).symm.trans (congrArg String.ofList hlist)
      · rw [if_neg (by simpa using hslash), if_neg (by rw [← hlist]; simpa [String.ext_iff] using hslash)]

theorem unix_twice_iff (htrim : trim value = value) (hne : value ≠ []) :
    (trim (unixPath value) ≠ [] ∧ unixPath (trim (unixPath value)) = unixPath value) ↔
      value = ['/'] ∨ value = ['/', '/'] ∨
        (trimEndOf '/' value ≠ [] ∧
          trim (trimEndOf '/' value) = trimEndOf '/' value) := by
  by_cases hroot : value = ['/'] ∨ value = ['/', '/']
  · have hself : unixPath value = value := if_pos (by simpa using hroot)
    rw [hself, htrim, hself]
    exact iff_of_true ⟨hne, rfl⟩ (hroot.elim .inl fun h => .inr (.inl h))
  · have hpath : ∀ path, path ≠ ['/'] → path ≠ ['/', '/'] → unixPath path = trimEndOf '/' path := by
      intro path hone htwo
      exact if_neg (by simp [hone, htwo])
    rw [not_or] at hroot
    rw [hpath value hroot.1 hroot.2]
    obtain ⟨stem, hdef⟩ : ∃ stem, stem = trimEndOf '/' value := ⟨_, rfl⟩
    have hstem : trimEndOf '/' stem = stem := by rw [hdef, trimEndOf_idem]
    rw [← hdef, or_iff_right hroot.1, or_iff_right hroot.2]
    constructor
    · rintro ⟨hleft, htwice⟩
      refine ⟨fun hemp => hleft (by rw [hemp]; rfl), trim_eq_of_length ?_⟩
      have hle : (unixPath (trim stem)).length ≤ (trim stem).length := by
        unfold unixPath
        split
        · exact le_rfl
        · exact (trimEndOf_isPrefix '/' _).length_le
      rwa [htwice] at hle
    · rintro ⟨hleft, hsame⟩
      rw [hsame, hpath stem, hstem]
      · exact ⟨hleft, rfl⟩
      · exact not_ends_of_trimEndOf [] hstem
      · exact not_ends_of_trimEndOf ['/'] hstem

/-- Normalising twice is normalising once exactly for the settled names. -/
theorem normalizeWorkspace_twice_iff (windows : Bool) (workspace : String) :
    normalizeWorkspaceFor (normalizeWorkspaceFor (some workspace) windows) windows =
        normalizeWorkspaceFor (some workspace) windows ↔
      SettledName windows workspace := by
  obtain ⟨value, hvl⟩ : ∃ value, value = trim workspace.toList := ⟨_, rfl⟩
  have htrim : trim value = value := by rw [hvl, trim_trim]
  rw [normalizeWorkspaceFor_some, SettledName, ← hvl]
  by_cases hemp : value = []
  · rw [if_pos hemp]
    exact iff_of_true rfl (.inl hemp)
  · rw [if_neg hemp, normalizeWorkspaceFor_some, String.toList_ofList, or_iff_right hemp]
    have htwice : ∀ path : List Char,
        ((if trim path = [] then none
            else some (String.ofList (normalizePath windows (trim path)))) =
          some (String.ofList path)) ↔
        (trim path ≠ [] ∧ normalizePath windows (trim path) = path) := by
      intro path
      split
      · rename_i hblk
        exact iff_of_false (by intro h; cases h) fun h => h.1 hblk
      · rename_i hblk
        rw [Option.some.injEq, and_iff_right hblk]
        exact ⟨fun h => String.ofList_injective h, fun h => congrArg String.ofList h⟩
    rw [htwice]
    cases windows with
    | true =>
      have hfst : normalizePath true value = finishWindowsPath (windowsPath value) := rfl
      have hsec : ∀ path, normalizePath true path = finishWindowsPath (windowsPath path) :=
        fun _ => rfl
      rw [if_pos rfl, hfst, hsec, windowsPath_trim_finish]
      exact finish_twice_iff (windowsPath value)
    | false =>
      rw [if_neg Bool.false_ne_true]
      exact unix_twice_iff htrim hemp

end Wardian.Memory
