/-
JSON values, as the automation engine stores and reads them.

An object keeps its members in insertion order, as `serde_json` does with its `preserve_order`
feature: inserting an existing key replaces the value in place, and removing a key moves the last
member into the gap.  A number is an unsigned integer, a negative integer or a floating-point
number; of the last kind only its text and whether it is zero are read by the engine, so these are
what the model keeps.

Main results:

* `JsonMap.get?_insert` — what a lookup finds after an insertion;
* `JsonMap.insert_of_get?` — inserting the value a key already has changes nothing.
-/

import Mathlib.Algebra.Order.Ring.Int
import Mathlib.Data.List.Basic

set_option autoImplicit false

namespace Wardian

/-- A JSON number. -/
inductive Number
  | posInt (n : Nat)
  | negInt (n : Int)
  | float (text : String) (nonzero : Bool)
  deriving DecidableEq

/-- A JSON value. -/
inductive Value
  | null
  | bool (b : Bool)
  | number (n : Number)
  | string (s : String)
  | array (values : List Value)
  | object (members : List (String × Value))

/-- The members of an object, in insertion order. -/
abbrev JsonMap := List (String × Value)

instance : Inhabited Value := ⟨.null⟩

/-! ### Decidable equality -/

mutual

/-- Equality of values is decided by descending through both at once. -/
def Value.decEq : (a b : Value) → Decidable (a = b)
  | .null, .null => isTrue rfl
  | .bool a, .bool b => decidable_of_iff (a = b) (by simp)
  | .number a, .number b => decidable_of_iff (a = b) (by simp)
  | .string a, .string b => decidable_of_iff (a = b) (by simp)
  | .array a, .array b =>
    match Value.decEqList a b with
    | isTrue h => isTrue (h ▸ rfl)
    | isFalse h => isFalse fun he => h (Value.array.inj he)
  | .object a, .object b =>
    match Value.decEqMembers a b with
    | isTrue h => isTrue (h ▸ rfl)
    | isFalse h => isFalse fun he => h (Value.object.inj he)
  | .null, .bool _ | .null, .number _ | .null, .string _ | .null, .array _ | .null, .object _
  | .bool _, .null | .bool _, .number _ | .bool _, .string _ | .bool _, .array _
  | .bool _, .object _ | .number _, .null | .number _, .bool _ | .number _, .string _
  | .number _, .array _ | .number _, .object _ | .string _, .null | .string _, .bool _
  | .string _, .number _ | .string _, .array _ | .string _, .object _ | .array _, .null
  | .array _, .bool _ | .array _, .number _ | .array _, .string _ | .array _, .object _
  | .object _, .null | .object _, .bool _ | .object _, .number _ | .object _, .string _
  | .object _, .array _ => isFalse nofun

def Value.decEqList : (a b : List Value) → Decidable (a = b)
  | [], [] => isTrue rfl
  | [], _ :: _ => isFalse nofun
  | _ :: _, [] => isFalse nofun
  | a :: as, b :: bs =>
    match Value.decEq a b, Value.decEqList as bs with
    | isTrue h, isTrue hs => isTrue (h ▸ hs ▸ rfl)
    | isFalse h, _ => isFalse fun he => h (List.cons.inj he).1
    | _, isFalse hs => isFalse fun he => hs (List.cons.inj he).2

def Value.decEqMembers : (a b : List (String × Value)) → Decidable (a = b)
  | [], [] => isTrue rfl
  | [], _ :: _ => isFalse nofun
  | _ :: _, [] => isFalse nofun
  | (k, a) :: as, (l, b) :: bs =>
    match instDecidableEqString k l, Value.decEq a b, Value.decEqMembers as bs with
    | isTrue hk, isTrue h, isTrue hs => isTrue (hk ▸ h ▸ hs ▸ rfl)
    | isFalse hk, _, _ => isFalse fun he => hk (Prod.mk.inj (List.cons.inj he).1).1
    | _, isFalse h, _ => isFalse fun he => h (Prod.mk.inj (List.cons.inj he).1).2
    | _, _, isFalse hs => isFalse fun he => hs (List.cons.inj he).2

end

instance : DecidableEq Value := Value.decEq

/-! ### The members of an object -/

namespace JsonMap

/-- The value of a key. -/
def get? (m : JsonMap) (key : String) : Option Value :=
  match m with
  | [] => none
  | (k, v) :: rest => if k = key then some v else get? rest key

/-- Set the value of a key, in place when the key is there and at the end otherwise. -/
def insert (m : JsonMap) (key : String) (value : Value) : JsonMap :=
  match m with
  | [] => [(key, value)]
  | (k, v) :: rest => if k = key then (k, value) :: rest else (k, v) :: insert rest key value

/-- Remove a key; the last member takes its place. -/
def remove (m : JsonMap) (key : String) : JsonMap :=
  match m with
  | [] => []
  | (k, v) :: rest =>
    if k = key then
      match rest.getLast? with
      | none => []
      | some last => last :: rest.dropLast
    else (k, v) :: remove rest key

def keys (m : JsonMap) : List String := m.map Prod.fst

def contains (m : JsonMap) (key : String) : Bool := (m.get? key).isSome

/-- Set the value of a key unless it has one. -/
def entryOrInsert (m : JsonMap) (key : String) (value : Value) : JsonMap :=
  if m.contains key then m else m.insert key value

theorem get?_insert (m : JsonMap) (key k : String) (value : Value) :
    (m.insert key value).get? k = if key = k then some value else m.get? k := by
  induction m with
  | nil => simp [insert, get?]
  | cons kv rest ih =>
    obtain ⟨k', v'⟩ := kv
    simp only [insert]
    split
    · subst k'
      simp only [get?]
      split <;> rfl
    · rename_i hne
      simp only [get?, ih]
      by_cases h : k' = k
      · subst h
        simp [Ne.symm hne]
      · simp [h]

@[simp] theorem get?_insert_self (m : JsonMap) (key : String) (value : Value) :
    (m.insert key value).get? key = some value := by simp [get?_insert]

/-- Inserting the value that a key already has changes nothing. -/
theorem insert_of_get? {m : JsonMap} {key : String} {value : Value}
    (h : m.get? key = some value) : m.insert key value = m := by
  induction m with
  | nil => simp [get?] at h
  | cons kv rest ih =>
    obtain ⟨k', v'⟩ := kv
    simp only [get?] at h
    simp only [insert]
    split
    · rename_i hk; simp only [hk, if_true, Option.some.injEq] at h; rw [hk, h]
    · rename_i hk; simp only [hk, if_false] at h; rw [ih h]

theorem entryOrInsert_of_get? {m : JsonMap} {key : String} {v : Value} (value : Value)
    (h : m.get? key = some v) : m.entryOrInsert key value = m := by
  simp [entryOrInsert, contains, h]

end JsonMap

/-! ### Reading and changing a value -/

namespace Value

/-- The member of an object; a value of another kind has none. -/
def get? : Value → String → Option Value
  | .object m, key => JsonMap.get? m key
  | _, _ => none

def asStr : Value → Option String
  | .string s => some s
  | _ => none

def asBool : Value → Option Bool
  | .bool b => some b
  | _ => none

def asU64 : Value → Option Nat
  | .number (.posInt n) => some n
  | _ => none

def asArray : Value → Option (List Value)
  | .array vs => some vs
  | _ => none

def asObject : Value → Option JsonMap
  | .object m => some m
  | _ => none

/-- Change the member `key` of an object in place, creating it as null when it is missing.  A null
value becomes an object first.  A value of another kind cannot be indexed by a key; the source
stops there, and the engine never reaches it. -/
def indexMut (v : Value) (key : String) (f : Value → Value) : Value :=
  match v with
  | .object m => .object (JsonMap.insert m key (f ((JsonMap.get? m key).getD .null)))
  | .null => .object [(key, f .null)]
  | other => other

theorem get?_indexMut_ne (v : Value) {key k : String} (f : Value → Value) (h : key ≠ k)
    (hv : v ≠ .null) : (v.indexMut key f).get? k = v.get? k := by
  cases v <;> simp_all [indexMut, get?, JsonMap.get?_insert]

theorem get?_indexMut_object (m : JsonMap) (key : String) (f : Value → Value) :
    ((Value.object m).indexMut key f).get? key =
      some (f ((JsonMap.get? m key).getD .null)) := by
  simp [indexMut, get?]

end Value

end Wardian
