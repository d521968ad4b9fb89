/-
**Tagged unions as JSON.**

A derived reader and writer for an enumeration whose variants have named fields: a value is an object
with a member for the tag and one for each field.  The reader takes the members in any order and passes
over the names it does not know; a name it knows may come once only, and a missing field is read as its
default, or as nothing where the field is optional.  The reader also takes an array of the tag and the
fields in their order, in which the last fields may be missing if they have a default.

The members of the outermost object are taken as they are written, so that a name can occur in it more
than once.

Main definitions:

* `Json.Fields.occurrences` — the values of the members of a name;
* `Json.Codec`, `Json.Field`, `Json.Record` — how one field is written and read, and all of a variant;
* `Json.Tagged` — an enumeration by its variants, with its reader `Json.Tagged.read` and its writer
  `Json.Tagged.write`;
* `Json.Tagged.Spells` — the objects that stand for a value.

Main results:

* `Json.Record.cons` — **the laws of a record follow from those of its fields**;
* `Json.Tagged.read_of_spells`, `Json.Tagged.spells_of_perm` — **whatever stands for a value is read as
  that value**, and what does;
* `Json.Tagged.tag_of_read` — what is read from an object has its tag once, and the right one.
-/

import SparklRouter.Text.Json

set_option relaxedAutoImplicit false
set_option autoImplicit false

namespace Json

/-! ### Members by name -/

namespace Fields

/-- The values of the members of the name, in their order. -/
def occurrences (fields : Fields) (name : Text) : List Value :=
  (fields.filter fun m => m.1 = name).map Sigma.snd

variable {fields fields' : Fields} {name : Text}

theorem occurrences_cons (m : Σ _ : Text, Value) (fields : Fields) (name : Text) :
    occurrences (m :: fields) name =
      if m.1 = name then m.2 :: fields.occurrences name else fields.occurrences name := by
  rw [occurrences, List.filter_cons]
  by_cases h : m.1 = name
  · simp [h, occurrences]
  · simp [h, occurrences]

theorem occurrences_append (fields fields' : Fields) (name : Text) :
    occurrences (fields ++ fields') name = fields.occurrences name ++ fields'.occurrences name := by
  rw [occurrences, List.filter_append, List.map_append]
  rfl

theorem occurrences_eq_nil (h : name ∉ fields.map Sigma.fst) : fields.occurrences name = [] := by
  rw [occurrences, List.map_eq_nil_iff, List.filter_eq_nil_iff]
  intro m hm hname
  exact h (List.mem_map.2 ⟨m, hm, of_decide_eq_true hname⟩)

/-- Among distinct names, a name occurs once at most. -/
theorem length_occurrences_le (h : (fields.map Sigma.fst).Nodup) (name : Text) :
    (fields.occurrences name).length ≤ 1 := by
  induction fields with
  | nil => exact Nat.zero_le _
  | cons m fields ih =>
      obtain ⟨hmem, hrest⟩ := List.nodup_cons.1 h
      rw [occurrences_cons]
      split
      · rename_i hname
        rw [occurrences_eq_nil (hname ▸ hmem)]
        rfl
      · exact ih hrest

/-- The order does not matter for a name that occurs once at most. -/
theorem occurrences_of_perm (h : fields.Perm fields') (hlength : (fields'.occurrences name).length ≤ 1) :
    fields.occurrences name = fields'.occurrences name := by
  have hperm : (fields.occurrences name).Perm (fields'.occurrences name) := by
    unfold occurrences
    exact (h.filter _).map Sigma.snd
  cases hvalues : fields'.occurrences name with
  | nil => exact List.perm_nil.1 (hvalues ▸ hperm)
  | cons v rest =>
      rw [hvalues, List.length_cons] at hlength
      obtain rfl : rest = [] := List.length_eq_zero_iff.1 (by omega)
      exact List.perm_singleton.1 (hvalues ▸ hperm)

end Fields

/-! ### Fields -/

/-- How the values of a type are written and read; `absent` is what a missing member is read as. -/
structure Codec (α : Type) where
  write : α → Value
  read : Value → Option α
  absent : Option α
  read_write : ∀ a, read (write a) = some a

namespace Codec

def string : Codec Text := ⟨.string, Value.asStr, none, fun _ => rfl⟩

/-- Any value. -/
def value : Codec Value := ⟨id, some, none, fun _ => rfl⟩

def u64 : Codec UInt64 := ⟨Value.ofU64, Value.asU64, none, fun _ => rfl⟩

def u16 : Codec UInt16 where
  write n := Value.ofU64 n.toUInt64
  read v := v.asU64.bind fun n => if n.toNat < 2 ^ 16 then some n.toUInt16 else none
  absent := none
  read_write n := by
    have hlt : n.toUInt64.toNat < 2 ^ 16 := by
      rw [UInt16.toNat_toUInt64]
      exact n.toNat_lt
    rw [Value.asU64_ofU64, Option.bind_some, if_pos hlt, UInt16.toUInt16_toUInt64]

/-- A type whose values are written as strings. -/
def ofText {α : Type} (format : α → Text) (parse : Text → Option α)
    (h : ∀ a, parse (format a) = some a) : Codec α where
  write a := .string (format a)
  read v := v.asStr.bind parse
  absent := none
  read_write := h

/-- An optional value: `null` and a missing member are none. -/
def option {α : Type} (c : Codec α) (h : ∀ a, c.write a ≠ .null) : Codec (Option α) where
  write
    | none => .null
    | some a => c.write a
  read
    | .null => some none
    | v => (c.read v).map some
  absent := some none
  read_write a := by
    cases a with
    | none => rfl
    | some a =>
        have hwrite := h a
        have hread := c.read_write a
        dsimp only
        split
        · rename_i hnull
          exact absurd hnull hwrite
        · rw [hread, Option.map_some]

end Codec

/-- A field with its name, and the default the reader has been told, if any. -/
structure Field (α : Type) where
  name : Text
  codec : Codec α
  default : Option α

/-- What a missing field is read as in an object. -/
def Field.missing {α : Type} (f : Field α) : Option α := f.default.orElse fun _ => f.codec.absent

/-- The field among the members of an object. -/
def Field.ofMembers {α : Type} (f : Field α) (members : Fields) : Option α :=
  match members.occurrences f.name with
  | [] => f.missing
  | [v] => f.codec.read v
  | _ => none

/-! ### Records -/

/-- **The fields of a variant**, with what their reader and writer owe each other. -/
structure Record (β : Type) where
  names : List Text
  nodup : names.Nodup
  write : β → Fields
  ofMembers : Fields → Option β
  /-- The values of an array. -/
  ofItems : List Value → Option β
  /-- The names that can be left out of what is written for a value. -/
  Omits : β → Text → Prop
  names_write : ∀ b, (write b).map Sigma.fst = names
  ofMembers_eq : ∀ (b : β) (members : Fields),
    (∀ name ∈ names, members.occurrences name = (write b).occurrences name ∨
      (Omits b name ∧ members.occurrences name = [])) → ofMembers members = some b
  ofItems_write : ∀ b, ofItems ((write b).map Sigma.snd) = some b

namespace Record

/-- No fields: an object may have any members, an array has no item. -/
def nil : Record Unit where
  names := []
  nodup := List.nodup_nil
  write _ := []
  ofMembers _ := some ()
  ofItems items := if items.isEmpty then some () else none
  Omits _ _ := False
  names_write _ := rfl
  ofMembers_eq _ _ _ := rfl
  ofItems_write _ := rfl

section

variable {α β : Type} (f : Field α) (r : Record β)

def consWrite (b : α × β) : Fields := ⟨f.name, f.codec.write b.1⟩ :: r.write b.2

def consOfMembers (members : Fields) : Option (α × β) :=
  (f.ofMembers members).bind fun a => (r.ofMembers members).map fun b => (a, b)

def consOfItems : List Value → Option (α × β)
  | [] => f.default.bind fun a => (r.ofItems []).map fun b => (a, b)
  | v :: items => (f.codec.read v).bind fun a => (r.ofItems items).map fun b => (a, b)

/-- A field can be left out if that is how its value is read. -/
def ConsOmits (b : α × β) (name : Text) : Prop :=
  if name = f.name then f.missing = some b.1 else r.Omits b.2 name

variable {f r}

theorem consOfMembers_eq (h : f.name ∉ r.names) (b : α × β) (members : Fields)
    (hmembers : ∀ name ∈ f.name :: r.names,
      members.occurrences name = Fields.occurrences (consWrite f r b) name ∨
        (ConsOmits f r b name ∧ members.occurrences name = [])) :
    consOfMembers f r members = some b := by
  obtain ⟨a, b⟩ := b
  have hfield : f.ofMembers members = some a := by
    have hwritten : Fields.occurrences (consWrite f r (a, b)) f.name = [f.codec.write a] := by
      have hrest : (r.write b).occurrences f.name = [] :=
        Fields.occurrences_eq_nil (by rw [r.names_write]; exact h)
      rw [consWrite, Fields.occurrences_cons, if_pos rfl, hrest]
    rcases hmembers f.name List.mem_cons_self with hvalue | ⟨homits, hnone⟩
    · rw [Field.ofMembers, hvalue, hwritten]
      exact f.codec.read_write a
    · rw [ConsOmits, if_pos rfl] at homits
      rw [Field.ofMembers, hnone]
      exact homits
  have hrest : r.ofMembers members = some b := by
    refine r.ofMembers_eq b members fun name hname => ?_
    have hne : name ≠ f.name := fun heq => h (heq ▸ hname)
    rcases hmembers name (List.mem_cons_of_mem _ hname) with hvalue | ⟨homits, hnone⟩
    · rw [consWrite, Fields.occurrences_cons, if_neg (Ne.symm hne)] at hvalue
      exact Or.inl hvalue
    · rw [ConsOmits, if_neg hne] at homits
      exact Or.inr ⟨homits, hnone⟩
  rw [consOfMembers, hfield, hrest]
  rfl

end

/-- **A field in front of the others.** -/
def cons {α β : Type} (f : Field α) (r : Record β) (h : f.name ∉ r.names) : Record (α × β) where
  names := f.name :: r.names
  nodup := List.nodup_cons.2 ⟨h, r.nodup⟩
  write := consWrite f r
  ofMembers := consOfMembers f r
  ofItems := consOfItems f r
  Omits := ConsOmits f r
  names_write b := by rw [consWrite, List.map_cons, r.names_write]
  ofMembers_eq := consOfMembers_eq h
  ofItems_write b := by
    rw [consWrite, List.map_cons, consOfItems, f.codec.read_write, r.ofItems_write]
    rfl

end Record

/-! ### Enumerations -/

/-- A variant: its tag, its fields, and its constructor. -/
structure Variant (F : Type) where
  tag : Text
  {β : Type}
  record : Record β
  make : β → F

/-- A value as its variant and the fields of it. -/
abbrev Variant.Data (F : Type) := Σ v : Variant F, v.β

/-- **An enumeration by its variants.** -/
structure Tagged (F : Type) where
  tagName : Text
  variants : List (Variant F)
  tags : (variants.map Variant.tag).Nodup
  free : ∀ v ∈ variants, tagName ∉ v.record.names
  split : F → Variant.Data F
  split_mem : ∀ a, (split a).1 ∈ variants
  make_split : ∀ a, (split a).1.make (split a).2 = a
  split_make : ∀ v ∈ variants, ∀ b, split (v.make b) = ⟨v, b⟩

namespace Tagged

variable {F : Type} (t : Tagged F)

/-- The variant of a tag. -/
def variant (tag : Value) : Option (Variant F) :=
  tag.asStr.bind fun name => t.variants.find? fun v => v.tag = name

def read : Value → Option F
  | .object members =>
      match Fields.occurrences members t.tagName with
      | [tag] => (t.variant tag).bind fun v => (v.record.ofMembers members).map v.make
      | _ => none
  | .array (tag :: items) => (t.variant tag).bind fun v => (v.record.ofItems items).map v.make
  | _ => none

/-- The members that are written for a value: the tag first. -/
def members (a : F) : Fields :=
  ⟨t.tagName, .string (t.split a).1.tag⟩ :: (t.split a).1.record.write (t.split a).2

def write (a : F) : Value := .object (t.members a)

/-- The names that matter to the reader of the value. -/
def names (a : F) : List Text := t.tagName :: (t.split a).1.record.names

/-- The names that can be left out; the tag cannot. -/
def Omits (a : F) (name : Text) : Prop :=
  name ≠ t.tagName ∧ (t.split a).1.record.Omits (t.split a).2 name

/-- **The value stands for `a`**: an object in which every name that matters has what is written for
it, or is missing where it can be left out; or the array of the values that are written. -/
inductive Spells (a : F) : Value → Prop
  | object {members : Fields} (h : ∀ name ∈ t.names a,
      members.occurrences name = (t.members a).occurrences name ∨
        (t.Omits a name ∧ members.occurrences name = [])) : Spells a (.object members)
  | array : Spells a (.array ((t.members a).map Sigma.snd))

variable {t}

/-- The tag of a variant leads to it. -/
theorem variant_tag {v : Variant F} (hv : v ∈ t.variants) : t.variant (.string v.tag) = some v := by
  have hfind : ∀ vs : List (Variant F), (vs.map Variant.tag).Nodup → v ∈ vs →
      vs.find? (fun w => w.tag = v.tag) = some v := by
    intro vs
    induction vs with
    | nil => exact fun _ hmem => by cases hmem
    | cons w vs ih =>
        intro hnodup hmem
        obtain ⟨hw, hrest⟩ := List.nodup_cons.1 hnodup
        rcases List.mem_cons.1 hmem with rfl | hmem
        · exact List.find?_cons_of_pos (decide_eq_true rfl)
        · have hne : w.tag ≠ v.tag := fun heq => hw (List.mem_map.2 ⟨v, hmem, heq.symm⟩)
          rw [List.find?_cons_of_neg (by simpa using hne)]
          exact ih hrest hmem
  exact hfind t.variants t.tags hv

theorem mem_of_variant {tag : Value} {v : Variant F} (h : t.variant tag = some v) :
    v ∈ t.variants ∧ tag = .string v.tag := by
  obtain ⟨name, hname, hfind⟩ := Option.bind_eq_some_iff.1 h
  have hdecide := List.find?_some hfind
  have htag : v.tag = name := of_decide_eq_true hdecide
  refine ⟨List.mem_of_find?_eq_some hfind, ?_⟩
  cases tag with
  | string s =>
      obtain rfl := Option.some.inj hname
      rw [htag]
  | null => cases hname
  | bool b => cases hname
  | number n => cases hname
  | array items => cases hname
  | object fields => cases hname

/-- The names of what is written are distinct. -/
theorem nodup_members (a : F) : ((t.members a).map Sigma.fst).Nodup := by
  rw [members, List.map_cons, (t.split a).1.record.names_write]
  exact List.nodup_cons.2 ⟨t.free _ (t.split_mem a), (t.split a).1.record.nodup⟩

/-- **Whatever stands for a value is read as that value.** -/
theorem read_of_spells {a : F} {v : Value} (h : t.Spells a v) : t.read v = some a := by
  have hvariant := variant_tag (t.split_mem a)
  have hfree := t.free _ (t.split_mem a)
  cases h with
  | @object ms h =>
      have htag : Fields.occurrences ms t.tagName = [.string (t.split a).1.tag] := by
        have hrest : ((t.split a).1.record.write (t.split a).2).occurrences t.tagName = [] := by
          refine Fields.occurrences_eq_nil ?_
          rw [(t.split a).1.record.names_write]
          exact hfree
        rcases h t.tagName List.mem_cons_self with hvalue | ⟨homits, -⟩
        · rw [hvalue, members, Fields.occurrences_cons, if_pos rfl, hrest]
        · exact absurd rfl homits.1
      have hrecord : (t.split a).1.record.ofMembers ms = some (t.split a).2 := by
        refine (t.split a).1.record.ofMembers_eq _ _ fun name hname => ?_
        have hne : t.tagName ≠ name := fun heq => hfree (heq ▸ hname)
        rcases h name (List.mem_cons_of_mem _ hname) with hvalue | ⟨homits, hnone⟩
        · rw [members, Fields.occurrences_cons, if_neg hne] at hvalue
          exact Or.inl hvalue
        · exact Or.inr ⟨homits.2, hnone⟩
      simp only [read, htag, hvariant, Option.bind_some, hrecord, Option.map_some, t.make_split]
  | array =>
      simp only [read, members, List.map_cons, hvariant, Option.bind_some,
        (t.split a).1.record.ofItems_write, Option.map_some, t.make_split]

/-- **The members that are written, in any order and with others around them**, stand for the value. -/
theorem spells_of_perm {a : F} {ms others : Fields} (hperm : ms.Perm (t.members a ++ others))
    (hothers : ∀ m ∈ others, m.1 ∉ t.names a) : t.Spells a (.object ms) := by
  refine Spells.object fun name hname => Or.inl ?_
  have hnone : others.occurrences name = [] := by
    refine Fields.occurrences_eq_nil fun hmem => ?_
    obtain ⟨m, hm, rfl⟩ := List.mem_map.1 hmem
    exact hothers m hm hname
  have happend : Fields.occurrences (t.members a ++ others) name =
      (t.members a).occurrences name := by
    rw [Fields.occurrences_append, hnone, List.append_nil]
  rw [← happend]
  refine Fields.occurrences_of_perm hperm ?_
  rw [happend]
  exact Fields.length_occurrences_le (nodup_members a) name

theorem read_write (a : F) : t.read (t.write a) = some a := by
  have hself : (t.members a).Perm (t.members a ++ []) := by rw [List.append_nil]
  exact read_of_spells (spells_of_perm hself fun m hm => by cases hm)

/-- What is read from an object has its tag once, and the right one. -/
theorem tag_of_read {ms : Fields} {a : F} (h : t.read (.object ms) = some a) :
    ms.occurrences t.tagName = [.string (t.split a).1.tag] ∧
      (t.split a).1.record.ofMembers ms = some (t.split a).2 := by
  rw [read] at h
  split at h
  · rename_i tag htag
    obtain ⟨v, hv, h⟩ := Option.bind_eq_some_iff.1 h
    obtain ⟨b, hb, rfl⟩ := Option.map_eq_some_iff.1 h
    obtain ⟨hmem, rfl⟩ := mem_of_variant hv
    rw [t.split_make v hmem b]
    exact ⟨htag, hb⟩
  · cases h

end Tagged

end Json
