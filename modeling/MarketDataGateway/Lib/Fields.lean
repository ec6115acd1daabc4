import Mathlib.Data.Finset.Basic
import Mathlib.Data.List.Sort
import MarketDataGateway.Lib.JsonRoundTrip

/-!
# Fields of models

A model is written as an object of JSON, by the names of its fields, and read back field by field:
one that is required, one with a default, or one that may be absent. A `Codec` says how the values
of a type are written and read, and `Codec.Exact` that reading gives a value back.

An absent value is written as a null, or not at all. `optional_filter` is that it makes no
difference.
-/

namespace MarketDataGateway.Lib

variable {α : Type*}

/-! ## Codecs -/

/-- How the values of a type are written and read. -/
structure Codec (α : Type*) where
  /-- What is written. -/
  dump : α → Json
  /-- What is read. `none` stands for an error. -/
  parse : Json → Option α
  sorted_dump : ∀ a, (dump a).Sorted
  dump_ne_null : ∀ a, dump a ≠ .null

namespace Codec

variable {c : Codec α} {a : α} {p : α → Prop} [DecidablePred p]

/-- The value is given back. -/
def Exact (c : Codec α) (a : α) : Prop := c.parse (c.dump a) = some a

/-- The values that satisfy a constraint. -/
def constrain (c : Codec α) (p : α → Prop) [DecidablePred p] : Codec { a // p a } where
  dump a := c.dump a
  parse v := (c.parse v).bind fun a => if h : p a then some ⟨a, h⟩ else none
  sorted_dump a := c.sorted_dump a
  dump_ne_null a := c.dump_ne_null a

/-- What is read is changed by a validator first. -/
def before (c : Codec α) (f : Json → Json) : Codec α := { c with parse := fun v => c.parse (f v) }

/-- A value that meets a constraint comes through it. -/
theorem Exact.constrain {a : { a // p a }} (h : c.Exact a.1) : (c.constrain p).Exact a := by
  show (c.parse (c.dump a.1)).bind _ = some a
  rw [h, Option.bind_some, dif_pos a.2]

/-- A value comes through a validator before it that leaves what is dumped. -/
theorem Exact.before {f : Json → Json} (h : c.Exact a) (hf : f (c.dump a) = c.dump a) :
    (c.before f).Exact a := by
  show c.parse (f (c.dump a)) = some a
  rw [hf, h]

/-! ### Values -/

/-- A string, as it stands. -/
def str : Codec PyStr where
  dump s := .str s
  parse
    | .str s => some s
    | _ => none
  sorted_dump s := .str s
  dump_ne_null _ := nofun

/-- A string comes through. -/
theorem exact_str (s : PyStr) : str.Exact s := rfl

/-- An integer. What else is taken for one is left open. -/
def int (lax : Json → Option ℤ) : Codec ℤ where
  dump n := .int n
  parse
    | .int n => some n
    | v => lax v
  sorted_dump n := .int n
  dump_ne_null _ := nofun

/-- An integer comes through. -/
theorem exact_int (lax : Json → Option ℤ) (n : ℤ) : (int lax).Exact n := rfl

/-- An enumeration of strings. -/
def strEnum (members : List α) (value : α → String) : Codec α where
  dump a := .str (text (value a))
  parse
    | .str s => members.find? fun a => text (value a) = s
    | _ => none
  sorted_dump _ := .str _
  dump_ne_null _ := nofun

/-- A member of an enumeration comes through, if no other has its value. -/
theorem exact_strEnum {members : List α} {value : α → String} (hmem : a ∈ members)
    (hvalue : Function.Injective value) : (strEnum members value).Exact a := by
  show members.find? _ = some a
  cases hfind : members.find? fun b => text (value b) = text (value a) with
  | none =>
    have hnone := List.find?_eq_none.1 hfind a hmem
    exact absurd (decide_eq_true rfl) hnone
  | some b =>
    have hb : text (value b) = text (value a) := of_decide_eq_true (List.find?_some hfind :)
    exact congrArg some (hvalue (text_injective hb))

/-- A set, which is written as the list of its members in the order of a key. -/
def finset [DecidableEq α] (c : Codec α) (members : List α) (key : α → PyStr) :
    Codec (Finset α) where
  dump s := .list (((members.filter (· ∈ s)).insertionSort fun a b => key a ≤ key b).map c.dump)
  parse
    | .list items => (items.mapM c.parse).map List.toFinset
    | _ => none
  sorted_dump s := .list fun v hv => by
    obtain ⟨a, -, rfl⟩ := List.mem_map.1 hv
    exact c.sorted_dump a
  dump_ne_null _ := nofun

/-- The items of a list come through if each one does. -/
theorem mapM_dump {l : List α} (h : ∀ a ∈ l, c.Exact a) : (l.map c.dump).mapM c.parse = some l := by
  induction l with
  | nil => rfl
  | cons a l ih =>
    rw [List.map_cons, List.mapM_cons, h a List.mem_cons_self,
      ih fun b hb => h b (List.mem_cons_of_mem a hb)]
    rfl

/-- The members of a set come through if each one does. -/
theorem exact_finset [DecidableEq α] {members : List α} {key : α → PyStr} {s : Finset α}
    (hmem : ∀ a ∈ s, a ∈ members) (h : ∀ a ∈ s, c.Exact a) : (c.finset members key).Exact s := by
  have hperm := List.perm_insertionSort (fun a b => key a ≤ key b) (members.filter (· ∈ s))
  have hsorted : ∀ a, a ∈ (members.filter (· ∈ s)).insertionSort (fun a b => key a ≤ key b) ↔
      a ∈ s := by
    intro a
    rw [hperm.mem_iff, List.mem_filter, decide_eq_true_eq]
    exact ⟨And.right, fun ha => ⟨hmem a ha, ha⟩⟩
  show ((List.map c.dump _).mapM c.parse).map List.toFinset = some s
  rw [mapM_dump fun a ha => h a ((hsorted a).1 ha), Option.map_some]
  refine congrArg some (Finset.ext fun a => ?_)
  rw [List.mem_toFinset]
  exact hsorted a

/-! ### Fields -/

/-- A field that is required. -/
def required (c : Codec α) (v : Option Json) : Option α := v.bind c.parse

/-- A field with a default. -/
def defaulted (c : Codec α) (a : α) : Option Json → Option α
  | none => some a
  | some v => c.parse v

/-- A field that is `None` by default. -/
def optional (c : Codec α) : Option Json → Option (Option α)
  | none => some none
  | some .null => some none
  | some v => (c.parse v).map some

/-- What is written for a field that may be `None`. -/
def dumpOption (c : Codec α) : Option α → Json
  | none => .null
  | some a => c.dump a

/-- What is dumped of an option has its keys in order, if that of the value has. -/
theorem sorted_dumpOption (o : Option α) : (c.dumpOption o).Sorted := by
  cases o with
  | none => exact .null
  | some a => exact c.sorted_dump a

/-- A required field that is dumped is parsed to what its value is. -/
theorem required_dump {b : α} (h : c.parse (c.dump a) = some b) :
    c.required (some (c.dump a)) = some b := h

/-- A field with a default that is dumped is parsed to what its value is. -/
theorem defaulted_dump {b d : α} (h : c.parse (c.dump a) = some b) :
    c.defaulted d (some (c.dump a)) = some b := h

/-- An optional field comes through if its value does. -/
theorem optional_dump {o : Option α} (h : ∀ a ∈ o, c.Exact a) :
    c.optional (some (c.dumpOption o)) = some o := by
  cases o with
  | none => rfl
  | some a =>
    unfold dumpOption optional
    split
    · next heq => exact absurd heq nofun
    · next heq => exact absurd (Option.some.inj heq) (c.dump_ne_null a)
    · next v _ heq =>
      rw [← Option.some.inj heq, h a rfl]
      rfl

end Codec

/-! ## Objects -/

/-- The value is a null. -/
def Json.isNull : Json → Bool
  | .null => true
  | _ => false

/-- Only `None` is null. -/
theorem Json.isNull_iff {v : Json} : v.isNull = true ↔ v = .null := by
  cases v <;> simp [isNull]

/-- A null may be left out. -/
theorem Codec.optional_filter (c : Codec α) (v : Option Json) :
    c.optional (v.filter fun v => !v.isNull) = c.optional v := by
  cases v with
  | none => rfl
  | some v =>
    cases hnull : v.isNull with
    | true =>
      obtain rfl := Json.isNull_iff.1 hnull
      rfl
    | false => rw [Option.filter_some, if_pos (by rw [hnull]; rfl)]

/-- What a codec writes is not left out. -/
theorem Codec.filter_dump (c : Codec α) (a : α) :
    (some (c.dump a)).filter (fun v => !v.isNull) = some (c.dump a) := by
  have hnull : (c.dump a).isNull = false := by
    rw [Bool.eq_false_iff]
    exact fun h => c.dump_ne_null a (Json.isNull_iff.1 h)
  rw [Option.filter_some, if_pos (by rw [hnull]; rfl)]

/-- The entries of an object, by the names of its fields. -/
def object (fields : List (String × Json)) : List (PyStr × Json) :=
  ofPairs (fields.map fun f => (text f.1, f.2))

/-- Without the fields that are null. -/
def dropNull (fields : List (String × Json)) : List (String × Json) :=
  fields.filter fun f => !f.2.isNull

/-- Every key is the name of a field. -/
def onlyFields (names : List String) (entries : List (PyStr × Json)) : Bool :=
  entries.all fun e => names.any fun name => text name = e.1

variable {fields : List (String × Json)} {name : String}

/-- An object of fields has its keys in order. -/
theorem sorted_object (h : ∀ f ∈ fields, f.2.Sorted) : (Json.dict (object fields)).Sorted := by
  refine .dict (sortedKeys_ofPairs _) fun e he => ?_
  obtain ⟨f, hf, rfl⟩ := List.mem_map.1 (mem_ofPairs he)
  exact h f hf

/-- An object of known fields has no others. -/
theorem onlyFields_object (names : List String) (h : ∀ f ∈ fields, f.1 ∈ names) :
    onlyFields names (object fields) = true := by
  unfold onlyFields
  rw [List.all_eq_true]
  intro e he
  obtain ⟨f, hf, rfl⟩ := List.mem_map.1 (mem_ofPairs he)
  rw [List.any_eq_true]
  exact ⟨f.1, h f hf, decide_eq_true rfl⟩

/-- A name that no field has is not found. -/
theorem lookup_eq_none (h : name ∉ fields.map Prod.fst) : fields.lookup name = none := by
  rw [List.lookup_eq_none_iff]
  intro f hf
  rw [bne_iff_ne]
  exact fun heq => h (heq ▸ List.mem_map_of_mem hf)

/-- An object made of fields has the value of each name that one of them has, and else the value it
had. -/
theorem getKey_foldl_insertKey (d : List (PyStr × Json)) (hnodup : (fields.map Prod.fst).Nodup) :
    getKey (text name) ((fields.map fun f => (text f.1, f.2)).foldl
        (fun d e => insertKey e.1 e.2 d) d) =
      (fields.lookup name).or (getKey (text name) d) := by
  induction fields generalizing d with
  | nil => rfl
  | cons f fields ih =>
    rw [List.map_cons, List.nodup_cons] at hnodup
    rw [List.map_cons, List.foldl_cons, ih _ hnodup.2, List.lookup_cons]
    by_cases hname : name = f.1
    · subst hname
      rw [lookup_eq_none hnodup.1, beq_self_eq_true, getKey_insertKey_self]
      rfl
    · have hkey : text name ≠ text f.1 := fun h => hname (text_injective h)
      rw [getKey_insertKey_ne hkey, beq_eq_false_iff_ne.2 hname]

/-- The value of a field. -/
theorem getKey_object (hnodup : (fields.map Prod.fst).Nodup) :
    getKey (text name) (object fields) = fields.lookup name := by
  unfold object ofPairs
  rw [getKey_foldl_insertKey [] hnodup]
  exact Option.or_none

/-- A field that is not null is still there when the nulls are dropped. -/
theorem lookup_dropNull (hnodup : (fields.map Prod.fst).Nodup) :
    (dropNull fields).lookup name = (fields.lookup name).filter fun v => !v.isNull := by
  induction fields with
  | nil => rfl
  | cons f fields ih =>
    obtain ⟨k, v⟩ := f
    rw [List.map_cons, List.nodup_cons] at hnodup
    have hrest := ih hnodup.2
    unfold dropNull at hrest ⊢
    rw [List.filter_cons, List.lookup_cons]
    by_cases hname : name = k
    · -- The name occurs here only, so that it is gone if the value is left out.
      subst hname
      rw [lookup_eq_none hnodup.1] at hrest
      rw [beq_self_eq_true]
      cases hnull : v.isNull with
      | true =>
        show (fields.filter _).lookup name = (some v).filter _
        rw [hrest, Option.filter_some, hnull]
        rfl
      | false =>
        show ((name, v) :: fields.filter _).lookup name = (some v).filter _
        rw [List.lookup_cons_self, Option.filter_some, hnull]
        rfl
    · rw [beq_eq_false_iff_ne.2 hname]
      split
      · rw [List.lookup_cons, beq_eq_false_iff_ne.2 hname]
        exact hrest
      · exact hrest

/-- An object without its nulls has the values that are not null. -/
theorem getKey_dropNull (hnodup : (fields.map Prod.fst).Nodup) :
    getKey (text name) (object (dropNull fields)) =
      (fields.lookup name).filter fun v => !v.isNull := by
  have hsub : ((dropNull fields).map Prod.fst).Nodup :=
    hnodup.sublist (List.filter_sublist.map _)
  rw [getKey_object hsub, lookup_dropNull hnodup]

end MarketDataGateway.Lib
