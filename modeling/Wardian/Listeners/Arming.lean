/-
What the arming fingerprint distinguishes.

The fingerprint hashes the listeners in the order of their identifiers, each as its identifier, its
armed state and the JSON of its trigger, with nothing between them.  The JSON says where it ends; an
identifier does not.  So the fingerprint tells two lists apart exactly where no listener of the one has an
identifier that begins with whole listeners of the other.

Main results:

* `Listeners.bodies_json` — the JSON of a trigger says where it ends;
* `Listeners.fingerprint_fireAll` — fires below the ceiling keep the fingerprint;
* `Listeners.ceiling_iff` — which fire disables a listener;
* `Listeners.exact_iff` — when the fingerprint is exact;
* `Listeners.not_recut_of_plain` — it is where no identifier has the character of an armed state in it.
-/

import Wardian.Listeners.Listener

set_option autoImplicit false

namespace Wardian.Listeners

open List
open JsonShape Records

/-! ### The text of a listener -/

/-- The characters of the armed states. -/
def IsMark (c : Char) : Prop := ∃ armed, c = armedChar armed

/-- The text of a JSON object. -/
def IsJson (body : List Char) : Prop := ∃ members, body = (Tree.object members).text

theorem encode_inj {cs ds : List Char} (h : Utf8.encode cs = Utf8.encode ds) : cs = ds := by
  have hdcd := Utf8.decode?_encode cs
  rw [h, Utf8.decode?_encode] at hdcd
  exact (Option.some.inj hdcd).symm

theorem objectBytes_eq_of_begins {members members' : List (List Char × Tree)}
    (h : objectBytes members <+: objectBytes members') : objectBytes members = objectBytes members' := by
  by_contra hne
  have hunfi := unfinished_of_start h (objectBytes_ne_nil members) hne
  rw [scan_objectBytes] at hunfi
  exact hunfi

/-- **The JSON of a trigger has no armed state in it and says where it ends.** -/
theorem bodies_json : Bodies IsMark IsJson := by
  constructor
  · rintro body ⟨members, rfl⟩ c hc ⟨armed, rfl⟩
    have hascii : (armedChar armed).toNat < 32 := by cases armed <;> decide
    have hbyte : UInt8.ofNat (armedChar armed).toNat ∈ objectBytes members := by
      unfold objectBytes Utf8.encode
      refine mem_flatMap.2 ⟨armedChar armed, hc, ?_⟩
      rw [Utf8.encodeChar_ascii (by omega)]
      exact mem_singleton.2 rfl
    have hprin := printable_objectBytes hbyte
    rw [UInt8.toNat_ofNat', Nat.mod_eq_of_lt (by omega)] at hprin
    omega
  · rintro body body' rest rest' ⟨members, rfl⟩ ⟨members', rfl⟩ htext
    have hbts : objectBytes members ++ Utf8.encode rest =
        objectBytes members' ++ Utf8.encode rest' := by
      unfold objectBytes
      rw [← Utf8.encode_append, htext, Utf8.encode_append]
    have hleft : objectBytes members <+: objectBytes members' ++ Utf8.encode rest' :=
      ⟨_, hbts⟩
    have hrt : objectBytes members' <+: objectBytes members' ++ Utf8.encode rest' :=
      prefix_append _ _
    rcases Nat.le_total (objectBytes members).length (objectBytes members').length with hle | hle
    · exact encode_inj (objectBytes_eq_of_begins (prefix_of_prefix_length_le hleft hrt hle))
    · exact encode_inj
        (objectBytes_eq_of_begins (prefix_of_prefix_length_le hrt hleft hle)).symm

theorem framed_armingRecords (listeners : List AutomationListener) :
    Framed IsMark IsJson (armingRecords listeners) := by
  intro record hmem
  obtain ⟨listener, -, rfl⟩ := mem_map.1 hmem
  exact ⟨⟨_, rfl⟩, ⟨_, rfl⟩⟩

/-! ### The listeners in order -/

/-- The two lists have the same identifiers, armed states and triggers. -/
def SameArming (left right : List AutomationListener) : Prop :=
  ∀ arming, arming ∈ left.map AutomationListener.arming ↔
    arming ∈ right.map AutomationListener.arming

/-- The identifiers are distinct. -/
def DistinctIds (listeners : List AutomationListener) : Prop :=
  (listeners.map AutomationListener.id).Nodup

/-- The JSON of the triggers of the listeners is injective. -/
def DistinctJson (listeners : List AutomationListener) : Prop :=
  ∀ left ∈ listeners, ∀ right ∈ listeners, left.trigger.json = right.trigger.json →
    left.trigger = right.trigger

variable {left right listeners : List AutomationListener}

theorem sortById_perm (listeners : List AutomationListener) : (sortById listeners).Perm listeners :=
  perm_insertionSort _ _

theorem sortById_pairwise (listeners : List AutomationListener) :
    (sortById listeners).Pairwise fun left right => left.id ≤ right.id := by
  have : Std.Total fun left right : AutomationListener => left.id ≤ right.id :=
    ⟨fun left right => String.le_total left.id right.id⟩
  have : IsTrans AutomationListener fun left right => left.id ≤ right.id :=
    ⟨fun _ _ _ h h' => String.le_trans h h'⟩
  exact pairwise_insertionSort _ _

theorem mem_sortedArmings {arming : Arming} :
    arming ∈ (sortById listeners).map AutomationListener.arming ↔
      arming ∈ listeners.map AutomationListener.arming :=
  ((sortById_perm listeners).map _).mem_iff

theorem nodup_armings (hids : DistinctIds listeners) : (listeners.map AutomationListener.arming).Nodup := by
  refine Nodup.of_map Arming.id ?_
  rw [map_map]
  exact hids

theorem sortedArmings_pairwise (listeners : List AutomationListener) :
    ((sortById listeners).map AutomationListener.arming).Pairwise fun left right =>
      left.id ≤ right.id := by
  rw [pairwise_map]
  exact sortById_pairwise listeners

/-- In the order of the identifiers there is one list for each set of listeners. -/
theorem sortedArmings_eq_iff (hleft : DistinctIds left) (hrt : DistinctIds right) :
    (sortById left).map AutomationListener.arming =
        (sortById right).map AutomationListener.arming ↔ SameArming left right := by
  constructor
  · intro heq arming
    rw [← mem_sortedArmings, heq, mem_sortedArmings]
  · intro hsame
    have hperm : ((sortById left).map AutomationListener.arming).Perm
        ((sortById right).map AutomationListener.arming) :=
      ((sortById_perm left).map _).trans
        (((perm_ext_iff_of_nodup (nodup_armings hleft) (nodup_armings hrt)).2 hsame).trans
          ((sortById_perm right).map _).symm)
    refine Perm.eq_of_pairwise ?_ (sortedArmings_pairwise left) (sortedArmings_pairwise right)
      hperm
    intro arming arming' hmem hmem' hle hle'
    have hid : arming.id = arming'.id := String.le_antisymm hle hle'
    rw [mem_sortedArmings, hsame] at hmem
    rw [mem_sortedArmings] at hmem'
    obtain ⟨listener, hlist, rfl⟩ := mem_map.1 hmem
    obtain ⟨listener', hlist', rfl⟩ := mem_map.1 hmem'
    rw [inj_on_of_nodup_map hrt hlist hlist' hid]

theorem map_eq_of_map_eq {α β γ : Type} {f : α → β} {g : α → γ} {l m : List α}
    (h : ∀ a ∈ l, ∀ b ∈ m, f a = f b → g a = g b) (hmap : l.map f = m.map f) : l.map g = m.map g := by
  induction l generalizing m with
  | nil =>
    cases m with
    | nil => rfl
    | cons b m => cases hmap
  | cons a l ih =>
    cases m with
    | nil => cases hmap
    | cons b m =>
      obtain ⟨hhead, htail⟩ := List.cons.inj hmap
      rw [map_cons, map_cons, h a mem_cons_self b mem_cons_self hhead,
        ih (fun a ha b hb => h a (mem_cons_of_mem _ ha) b (mem_cons_of_mem _ hb)) htail]

theorem armedChar_inj {armed armed' : Bool} (h : armedChar armed = armedChar armed') : armed = armed' := by
  cases armed <;> cases armed' <;> first | rfl | exact absurd h (by decide)

theorem armingRecords_eq_iff (hjson : DistinctJson (left ++ right)) :
    armingRecords left = armingRecords right ↔
      (sortById left).map AutomationListener.arming =
        (sortById right).map AutomationListener.arming := by
  unfold armingRecords
  constructor
  · refine map_eq_of_map_eq ?_
    intro listener hmem listener' hmem' hrec
    have hmem := (sortById_perm left).mem_iff.1 hmem
    have hmem' := (sortById_perm right).mem_iff.1 hmem'
    have hkey := congrArg Record.key hrec
    have hmark := congrArg Record.mark hrec
    have hbody := congrArg Record.body hrec
    have htrig := hjson listener (mem_append_left _ hmem) listener'
      (mem_append_right _ hmem') hbody
    have hid : listener.id = listener'.id := String.toList_inj.1 hkey
    have harmed : listener.shouldArm = listener'.shouldArm := armedChar_inj hmark
    unfold AutomationListener.arming
    rw [hid, harmed, htrig]
  · intro heq
    have hmap := congrArg (List.map Arming.record) heq
    rw [map_map, map_map] at hmap
    exact hmap

/-! ### The fingerprint -/

/-- The hash tells the texts of the two lists apart. -/
def NoCollision (sha256Hex : List UInt8 → String) (left right : List AutomationListener) : Prop :=
  armingFingerprint sha256Hex left = armingFingerprint sha256Hex right →
    Utf8.encode (textOf (armingRecords left)) = Utf8.encode (textOf (armingRecords right))

/-- The fingerprints of the lists are equal if and only if their listeners are armed alike. -/
def Exact (sha256Hex : List UInt8 → String) (left right : List AutomationListener) : Prop :=
  armingFingerprint sha256Hex left = armingFingerprint sha256Hex right ↔ SameArming left right

theorem fingerprint_eq_iff {sha256Hex : List UInt8 → String} (hsha : NoCollision sha256Hex left right) :
    armingFingerprint sha256Hex left = armingFingerprint sha256Hex right ↔
      textOf (armingRecords left) = textOf (armingRecords right) := by
  constructor
  · exact fun heq => encode_inj (hsha heq)
  · intro heq
    unfold armingFingerprint
    rw [heq]

theorem fingerprint_of_sameArming (sha256Hex : List UInt8 → String) (hleft : DistinctIds left)
    (hrt : DistinctIds right) (hsame : SameArming left right) :
    armingFingerprint sha256Hex left = armingFingerprint sha256Hex right := by
  have hmap := congrArg (List.map Arming.record) ((sortedArmings_eq_iff hleft hrt).2 hsame)
  rw [map_map, map_map] at hmap
  have hrecs : armingRecords left = armingRecords right := hmap
  unfold armingFingerprint
  rw [hrecs]

/-- **A fire below the ceiling keeps the fingerprint.** -/
theorem fingerprint_recordFire (sha256Hex : List UInt8 → String) (before after : List AutomationListener)
    (listener : AutomationListener) (now : Nat) (hids : DistinctIds (before ++ listener :: after))
    (hbelow : (recordFireWithinCeiling listener.runtime now).1 = true) :
    armingFingerprint sha256Hex (before ++
        { listener with runtime := (recordFireWithinCeiling listener.runtime now).2 } :: after) =
      armingFingerprint sha256Hex (before ++ listener :: after) := by
  have harming : ({ listener with
      runtime := (recordFireWithinCeiling listener.runtime now).2 } : AutomationListener).arming =
        listener.arming := by
    unfold AutomationListener.arming AutomationListener.shouldArm
    unfold recordFireWithinCeiling at hbelow ⊢
    dsimp only at hbelow ⊢
    split at hbelow
    · cases hbelow
    · rename_i hfew
      rw [if_neg hfew]
  refine fingerprint_of_sameArming sha256Hex ?_ hids ?_
  · unfold DistinctIds at hids ⊢
    rw [map_append, map_cons] at hids ⊢
    exact hids
  · intro arming
    rw [map_append, map_cons, map_append, map_cons, harming]

/-- **The fingerprint is exact for two lists if and only if they are not one text, cut in different
places.** -/
theorem exact_iff {sha256Hex : List UInt8 → String} (hleft : DistinctIds left) (hrt : DistinctIds right)
    (hsha : NoCollision sha256Hex left right) (hjson : DistinctJson (left ++ right)) :
    Exact sha256Hex left right ↔ ¬Recut (armingRecords left) (armingRecords right) := by
  have hsame : SameArming left right ↔ armingRecords left = armingRecords right :=
    (sortedArmings_eq_iff hleft hrt).symm.trans (armingRecords_eq_iff hjson).symm
  have htext := textOf_eq_iff bodies_json (framed_armingRecords left) (framed_armingRecords right)
  unfold Exact
  rw [fingerprint_eq_iff hsha, hsame, htext]
  constructor
  · intro hexact hrecut
    exact hrecut.ne (hexact.1 (.inr hrecut))
  · intro hnot
    constructor
    · rintro (heq | hrecut)
      · exact heq
      · exact absurd hrecut hnot
    · exact .inl

/-- Identifiers without an armed state in them are not cut in other places. -/
theorem not_recut_of_plain
    (h : ∀ listener ∈ left ++ right, ∀ c ∈ listener.id.toList, ∀ armed, c ≠ armedChar armed) :
    ¬Recut (armingRecords left) (armingRecords right) := by
  intro hrecut
  obtain ⟨record, hmem, c, hc, armed, rfl⟩ :=
    hrecut.marked (framed_armingRecords left) (framed_armingRecords right)
  rcases mem_append.1 hmem with hmem | hmem
  · obtain ⟨listener, hlist, rfl⟩ := mem_map.1 hmem
    have hlist := (sortById_perm left).mem_iff.1 hlist
    exact h listener (mem_append_left _ hlist) _ hc armed rfl
  · obtain ⟨listener, hlist, rfl⟩ := mem_map.1 hmem
    have hlist := (sortById_perm right).mem_iff.1 hlist
    exact h listener (mem_append_right _ hlist) _ hc armed rfl

/-! Two webhooks.  Disabling one changes the fingerprint; one listener whose identifier is the text of the
first and the identifier of the second has the fingerprint of both. -/

def sampleHook (id segment : String) (enabled : Bool) : AutomationListener :=
  { id := id
    blueprintId := "audit"
    name := "Audit"
    enabled := enabled
    trigger := .webhook
      { pathSegment := segment, auth := .token, signatureHeader := none, maxBodyBytes := 262144 }
    runtime :=
      { lastFireEpochMs := none, fireCount := 0, recentFireEpochMs := [], disabledReason := none } }

def sampleHooks : List AutomationListener :=
  [sampleHook "build" "hook-c" true, sampleHook "audit" "hook-a" true]

def sampleDisabled : List AutomationListener :=
  [sampleHook "build" "hook-c" false, sampleHook "audit" "hook-a" true]

/-- The hash of what is hashed of the two webhooks, and of them with the second disabled. -/
def sampleHash (bytes : List UInt8) : String :=
  if bytes = Utf8.encode (textOf (armingRecords sampleHooks)) then
    "605a5dacfa7eb4a181a747e8e2e86239f14212d7fcaed30009e0adbd7d99d1be"
  else "5d5fa1099323033da2b486c4746ca20cb45d850f7e6baa3cccb0f2dcff360fd4"

theorem exact_iff_sample : Exact sampleHash sampleHooks sampleDisabled := by
  refine (exact_iff (by unfold DistinctIds; decide) (by unfold DistinctIds; decide) ?_ ?_).2 ?_
  · have hne : armingFingerprint sampleHash sampleHooks ≠
        armingFingerprint sampleHash sampleDisabled := by decide +kernel
    exact fun heq => absurd heq hne
  · unfold DistinctJson
    decide
  · exact not_recut_of_plain (by simp [sampleHooks, sampleDisabled, sampleHook, armedChar])

def sampleHost : Host :=
  { isAbsolute := fun path => path.toList.head? == some '/'
    canonicalize := fun _ => .error "No such file or directory (os error 2)"
    display := fun components => "/" ++ "/".intercalate components
    userHome := none
    wardianHome := none
    globError := fun _ => none
    regexError := fun _ => none }

/-- One webhook with the text of the first in its identifier. -/
def sampleLong : List AutomationListener :=
  [sampleHook (String.ofList ((sampleHook "audit" "hook-a" true).arming.record.text ++
    "build".toList)) "hook-c" true]

theorem not_exact : ¬∀ host sha256Hex left right,
    (∀ listener ∈ left ++ right, validateListener host listener = .ok ()) → DistinctIds left →
    DistinctIds right → NoCollision sha256Hex left right → DistinctJson (left ++ right) →
    Exact sha256Hex left right := by
  intro h
  have htext : textOf (armingRecords sampleHooks) = textOf (armingRecords sampleLong) := by
    decide +kernel
  have hexact := h sampleHost sampleHash sampleHooks sampleLong (by decide)
    (by unfold DistinctIds; decide) (by unfold DistinctIds; decide) (fun _ => by rw [htext])
    (by unfold DistinctJson; decide)
  have hsame := hexact.1 (by unfold armingFingerprint; rw [htext])
    (sampleHook "audit" "hook-a" true).arming
  revert hsame
  decide

/-! ### Fires -/

/-- A listener that has fired at some times. -/
def fireAll (runtime : ListenerRuntime) (times : List Nat) : ListenerRuntime :=
  times.foldl (fun runtime now => (recordFireWithinCeiling runtime now).2) runtime

variable {runtime : ListenerRuntime} {times : List Nat} {now : Nat}

theorem fireAll_concat (runtime : ListenerRuntime) (times : List Nat) (last : Nat) :
    fireAll runtime (times ++ [last]) = (recordFireWithinCeiling (fireAll runtime times) last).2 := by
  unfold fireAll
  rw [foldl_append, foldl_cons, foldl_nil]

theorem recent_recordFire (runtime : ListenerRuntime) (now : Nat) :
    (recordFireWithinCeiling runtime now).2.recentFireEpochMs =
      (runtime.recentFireEpochMs.filter fun time => now - rateCeilingWindowMs < time) ++ [now] := by
  unfold recordFireWithinCeiling
  dsimp only
  split <;> rfl

/-- Nothing that is still in the window has been dropped. -/
theorem recent_fireAll (hnew : runtime.recentFireEpochMs = []) (hclock : times.Pairwise (· ≤ ·))
    (hnow : ∀ time ∈ times, time ≤ now) :
    ((fireAll runtime times).recentFireEpochMs.filter fun time => now - rateCeilingWindowMs < time) =
      times.filter fun time => now - rateCeilingWindowMs < time := by
  induction times using reverseRecOn generalizing now with
  | nil =>
    change runtime.recentFireEpochMs.filter _ = _
    rw [hnew]
  | append_singleton times last ih =>
    obtain ⟨hearl, -, hlast⟩ := pairwise_append.1 hclock
    have hle : last ≤ now := hnow last (by simp)
    rw [fireAll_concat, recent_recordFire, ih hearl fun time htime => hlast time htime last (by simp), filter_append,
      filter_append, filter_filter]
    congr 1
    refine filter_congr fun time _ => ?_
    rw [Bool.and_eq_left_iff_imp, decide_eq_true_iff, decide_eq_true_iff]
    omega

/-- **A listener does not disarm itself by firing.**  As long as every fire is below the ceiling, the
fingerprint of the list stays what it was. -/
theorem fingerprint_fireAll (sha256Hex : List UInt8 → String) (before after : List AutomationListener)
    (listener : AutomationListener) (hids : DistinctIds (before ++ listener :: after))
    (hbelow : ∀ earlier now later, times = earlier ++ now :: later →
      (recordFireWithinCeiling (fireAll listener.runtime earlier) now).1 = true) :
    armingFingerprint sha256Hex
        (before ++ { listener with runtime := fireAll listener.runtime times } :: after) =
      armingFingerprint sha256Hex (before ++ listener :: after) := by
  induction times using reverseRecOn with
  | nil => rfl
  | append_singleton times last ih =>
    have hstep := fingerprint_recordFire sha256Hex before after
      { listener with runtime := fireAll listener.runtime times } last
      (by unfold DistinctIds at hids ⊢; simpa using hids) (hbelow times last [] rfl)
    rw [fireAll_concat, ← ih fun earlier now later heq =>
      hbelow earlier now (later ++ [last]) (by rw [heq, append_assoc, cons_append])]
    exact hstep

theorem fingerprint_fireAll_sample : armingFingerprint sampleHash
    ([] ++ { sampleHook "build" "hook-c" true with
      runtime := fireAll (sampleHook "build" "hook-c" true).runtime [1000, 1000, 70000] } ::
      [sampleHook "audit" "hook-a" true]) = armingFingerprint sampleHash sampleHooks := by
  refine fingerprint_fireAll sampleHash [] _ _ (by unfold DistinctIds; decide) ?_
  intro earlier now later heq
  rcases earlier with _ | ⟨first, _ | ⟨second, _ | ⟨third, earlier⟩⟩⟩ <;>
    simp only [nil_append, cons_append, List.cons.injEq] at heq
  · obtain ⟨rfl, -⟩ := heq
    decide
  · obtain ⟨rfl, rfl, -⟩ := heq
    decide
  · obtain ⟨rfl, rfl, rfl, -⟩ := heq
    decide
  · simp at heq

/-- **A listener is disabled by its twenty-first fire within a minute**, and by no other, as long as the
clock does not go back.  In the first minute of the epoch a fire at 0 does not count. -/
theorem ceiling_iff (hnew : runtime.recentFireEpochMs = []) (hclock : times.Pairwise (· ≤ ·))
    (hnow : ∀ time ∈ times, time ≤ now) (hlate : rateCeilingWindowMs ≤ now)
    (hfew : times.length + 1 < 2 ^ 32) :
    ((recordFireWithinCeiling (fireAll runtime times) now).1 = false ↔
        rateCeilingFires ≤ times.countP fun time => now < time + rateCeilingWindowMs) ∧
      ((recordFireWithinCeiling (fireAll runtime times) now).1 = false →
        (recordFireWithinCeiling (fireAll runtime times) now).2.disabledReason.isSome = true) ∧
      ((recordFireWithinCeiling (fireAll runtime times) now).1 = true →
        (recordFireWithinCeiling (fireAll runtime times) now).2.disabledReason =
          (fireAll runtime times).disabledReason) := by
  have hwin : (times.countP fun time => now < time + rateCeilingWindowMs) =
      (times.filter fun time => now - rateCeilingWindowMs < time).length := by
    rw [countP_eq_length_filter]
    exact congrArg List.length (filter_congr fun time _ => decide_eq_decide.2 (by omega))
  have hrct := congrArg List.length (recent_fireAll hnew hclock hnow)
  have hcnt := length_filter_le (fun time => now - rateCeilingWindowMs < time) times
  unfold recordFireWithinCeiling
  dsimp only
  rw [length_append, hrct, length_singleton, Nat.mod_eq_of_lt (by omega), hwin]
  split
  · exact ⟨iff_of_true rfl (by omega), fun _ => rfl, fun h => by cases h⟩
  · exact ⟨iff_of_false (fun h => by cases h) (by omega), fun h => (by cases h), fun _ => rfl⟩

/-- Twenty fires in one moment stop a fire at the end of the minute, and none behind it. -/
theorem ceiling_sample :
    (recordFireWithinCeiling (fireAll ⟨none, 0, [], none⟩ (replicate 20 60000)) 119999).1 =
        false ∧
      (recordFireWithinCeiling (fireAll ⟨none, 0, [], none⟩ (replicate 20 60000))
        119999).2.disabledReason.isSome = true ∧
      (recordFireWithinCeiling (fireAll ⟨none, 0, [], none⟩ (replicate 20 60000))
        120000).1 ≠ false := by
  have hclock : (replicate 20 60000).Pairwise (· ≤ ·) := pairwise_replicate.2 (.inr le_rfl)
  have hearl : ∀ now, 60000 ≤ now → ∀ time ∈ replicate 20 60000, time ≤ now :=
    fun now hle time hmem => eq_of_mem_replicate hmem ▸ hle
  obtain ⟨hfull, hdis, -⟩ := @ceiling_iff ⟨none, 0, [], none⟩ (replicate 20 60000) 119999 rfl
    hclock (hearl _ (by decide)) (by decide) (by decide)
  obtain ⟨hpast, -⟩ := @ceiling_iff ⟨none, 0, [], none⟩ (replicate 20 60000) 120000 rfl
    hclock (hearl _ (by decide)) (by decide) (by decide)
  have hlimi := hfull.2 (by decide)
  exact ⟨hlimi, hdis hlimi, fun h => absurd (hpast.1 h) (by decide)⟩

end Wardian.Listeners
