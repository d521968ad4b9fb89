/-
**JSON values.**

A JSON value as a parser hands it over: the numbers are split into the natural numbers below `2^64`,
the negative integers and the rest, and an object is a list of members.  Reading a member finds
the first one of that name, and writing one puts it in place of whatever was there, so an object
behaves as a map from names to values; the order of the members carries no meaning.

Main definitions:

* `Json.Number`, `Json.Value`, `Json.Fields` — the values;
* `Json.Value.get`, `Json.Value.pointer` — a member, and the value at a path of names and indices;
* `Json.Value.asBool`, `Json.Value.asU64`, `Json.Value.asStr`, `Json.Value.asArray`,
  `Json.Value.asObject` — the views;
* `Json.Fields.put`, `Json.Fields.entryOrInsert`, `Json.Fields.member` — writing and reading the
  members of an object.

Main results:

* `Json.Fields.member_put`, `Json.Fields.member_put_ne`, `Json.Fields.member_place` — a write is
  read back, and nothing else is changed by it;
* `Json.Value.exists_fields_of_get` — only objects have members.
-/

import Mathlib.Data.List.Sigma
import SparklRouter.Text.Hex

set_option relaxedAutoImplicit false
set_option autoImplicit false

namespace Json

/-- A number: below `2^64`, negative, or a floating-point number given by its bits. -/
inductive Number
  | posInt (n : UInt64)
  | negInt (i : ℤ)
  | float (bits : UInt64)
deriving DecidableEq

inductive Value
  | null
  | bool (b : Bool)
  | number (n : Number)
  | string (s : Text)
  | array (items : List Value)
  | object (fields : List (Σ _ : Text, Value))

/-- The members of an object. -/
abbrev Fields := List (Σ _ : Text, Value)

/-! ### Members of an object -/

namespace Fields

def member (fields : Fields) (key : Text) : Option Value := fields.dlookup key

def put (fields : Fields) (key : Text) (v : Value) : Fields := fields.kinsert key v

@[simp] theorem member_put (fields : Fields) (key : Text) (v : Value) :
    (fields.put key v).member key = some v :=
  List.dlookup_kinsert fields

@[simp] theorem member_put_ne (fields : Fields) {key key' : Text} (v : Value) (h : key ≠ key') :
    (fields.put key' v).member key = fields.member key :=
  List.dlookup_kinsert_ne h

@[simp] theorem member_nil (key : Text) : member [] key = none := rfl

theorem member_cons (key : Text) (v : Value) (fields : Fields) (key' : Text) :
    member (⟨key, v⟩ :: fields) key' = if key' = key then some v else fields.member key' := by
  split
  · rename_i h
    rw [h]
    exact List.dlookup_cons_eq fields key v
  · rename_i h
    exact List.dlookup_cons_ne fields ⟨key, v⟩ h

/-- The members with a new one at its place in the order of the names. -/
def place (fields : Fields) (key : Text) (v : Value) : Fields :=
  match fields with
  | [] => [⟨key, v⟩]
  | f :: rest => if key < f.1 then ⟨key, v⟩ :: f :: rest else f :: place rest key v

/-- `entry(key).or_insert(v)`. -/
def entryOrInsert (fields : Fields) (key : Text) (v : Value) : Fields :=
  if (fields.member key).isSome then fields else fields.place key v

theorem member_place (fields : Fields) (key : Text) (v : Value) (h : fields.member key = none)
    (key' : Text) :
    (fields.place key v).member key' = if key' = key then some v else fields.member key' := by
  induction fields with
  | nil => exact member_cons key v [] key'
  | cons f rest ih =>
      obtain ⟨name, w⟩ := f
      rw [member_cons] at h
      have hname : key ≠ name := by
        intro heq
        rw [if_pos heq] at h
        cases h
      rw [if_neg hname] at h
      rw [place]
      split
      · exact member_cons key v _ key'
      · rw [member_cons, member_cons, ih h]
        by_cases hkey : key' = key
        · rw [if_pos hkey, if_pos hkey, if_neg (hkey ▸ hname)]
        · rw [if_neg hkey, if_neg hkey]

theorem entryOrInsert_of_some {fields : Fields} {key : Text} {w : Value}
    (h : fields.member key = some w) (v : Value) : fields.entryOrInsert key v = fields := by
  rw [entryOrInsert, h]
  rfl

theorem entryOrInsert_of_none {fields : Fields} {key : Text} (h : fields.member key = none)
    (v : Value) : fields.entryOrInsert key v = fields.place key v := by
  rw [entryOrInsert, h]
  rfl

end Fields

namespace Value

/-! ### Views -/

def asBool : Value → Option Bool
  | .bool b => some b
  | _ => none

def asU64 : Value → Option UInt64
  | .number (.posInt n) => some n
  | _ => none

def asStr : Value → Option Text
  | .string s => some s
  | _ => none

def asArray : Value → Option (List Value)
  | .array items => some items
  | _ => none

def asObject : Value → Option Fields
  | .object fields => some fields
  | _ => none

/-- A natural number below `2^64`, as a value. -/
def ofU64 (n : UInt64) : Value := .number (.posInt n)

@[simp] theorem asU64_ofU64 (n : UInt64) : (ofU64 n).asU64 = some n := rfl

/-! ### Paths -/

/-- The member of an object; anything else has none. -/
def get (v : Value) (key : Text) : Option Value := v.asObject.bind fun fields => fields.member key

/-- An array index in a path: decimal digits without a sign and without leading zeros. -/
def parseIndex (token : Text) : Option ℕ :=
  if token.isEmpty || (token.head? = some '0' && token.length ≠ 1) || !token.all Char.isDigit then
    none
  else some (token.foldl (fun n c => 10 * n + (c.toNat - 48)) 0)

/-- One step of a path. -/
def child (v : Value) (token : Text) : Option Value :=
  match v with
  | .object fields => Fields.member fields token
  | .array items => (parseIndex token).bind fun i => items[i]?
  | _ => none

/-- The value at the end of a path. -/
def pointer (v : Value) (tokens : List Text) : Option Value := tokens.foldlM child v

/-- Only objects have members. -/
theorem exists_fields_of_get {v w : Value} {key : Text} (h : v.get key = some w) :
    ∃ fields, v = .object fields ∧ Fields.member fields key = some w := by
  cases v with
  | object fields => exact ⟨fields, rfl, h⟩
  | null => cases h
  | bool b => cases h
  | number n => cases h
  | string s => cases h
  | array items => cases h

@[simp] theorem get_object (fields : Fields) (key : Text) :
    (object fields).get key = fields.member key := rfl

end Value

end Json
