import Mathlib.Data.Finmap
import Mathlib.Logic.Function.Basic

/-!
# Decoding JSON into a value that already exists

Go's `json.Unmarshal` writes into a variable.  What the text does not mention
stays as it was: a field that is absent, a number or string that is `null`, the
entries of a map that are not named, and the memory of a slice, whose elements
are decoded in place and whose old elements come back when the slice grows
again.

A `Decoder` is one Go type: how a value of JSON changes a variable of that type
and when it fits it, what of the variable is observed, and a predicate `fresh`
on the variable and the values that are going to be decoded into it, with the
proof that it is exact: the observed result is the one a zero variable would
give if and only if `fresh` holds.  A variable can be assigned several times in
one text, since keys that differ in their case name the same field; so `fresh`
and its law are about sequences of values.

The types are scalars, pointers to scalars (`optional`), maps of scalars,
slices and structs (`record`); a struct is a function from its fields to their
values.
-/

namespace JsonDecode

open List Finmap Function

/-- A value of JSON.  A number with a fraction or an exponent is kept apart: Go does not
take one for an integer, whatever its value is. -/
inductive Json
  | null
  | bool (b : Bool)
  | num (n : Int)
  | decimal (text : String)
  | str (s : String)
  | arr (elems : List Json)
  | obj (members : List (String × Json))

namespace Json

def isNull : Json → Bool
  | null => true
  | _ => false

/-- The elements of an array; other values have none. -/
def elems : Json → List Json
  | arr es => es
  | _ => []

/-- The members of an object; other values have none. -/
def members : Json → List (String × Json)
  | obj ms => ms
  | _ => []

def readString : Json → Option String
  | str s => some s
  | _ => none

def readBool : Json → Option Bool
  | bool b => some b
  | _ => none

/-- A number as an integer type with the given least and greatest value. -/
def readInt (lo hi : Int) : Json → Option Int
  | num n => if lo ≤ n ∧ n ≤ hi then some n else none
  | _ => none

end Json

/-- Decoding into variables of type `α`, observed as values of type `β`. -/
structure Decoder (α β : Type) where
  zero : α
  /-- The variable after a value was decoded into it, as far as it fits. -/
  decode : α → Json → α
  /-- The value fits the type: decoding it reports no error. -/
  fits : Json → Bool
  view : α → β
  fresh : α → List Json → Bool
  view_eq_iff : ∀ (x : α) (js : List Json), (∀ j ∈ js, fits j = true) →
    (view (js.foldl decode x) = view (js.foldl decode zero) ↔ fresh x js = true)

/-- An assignment that does not look at the variable makes it forget. -/
theorem foldl_eq_of_forgets {α ι : Type} {f : α → ι → α} {is : List ι} {i : ι} (hi : i ∈ is)
    (hf : ∀ x y, f x i = f y i) (x y : α) : is.foldl f x = is.foldl f y := by
  induction is generalizing x y with
  | nil => cases hi
  | cons k is ih =>
    rw [foldl_cons, foldl_cons]
    rcases mem_cons.mp hi with rfl | hi
    · rw [hf x y]
    · exact ih hi _ _

section InsertAll

variable {κ ν : Type} [DecidableEq κ]

/-- Write entries into a map, one after the other. -/
def insertAll (kvs : List (κ × ν)) (x : Finmap (fun _ : κ => ν)) : Finmap (fun _ : κ => ν) :=
  kvs.foldl (fun m kv => m.insert kv.1 kv.2) x

variable {kvs : List (κ × ν)}

theorem lookup_insertAll_of_notMem {k : κ} (hk : k ∉ kvs.map Prod.fst)
    (x : Finmap (fun _ : κ => ν)) : (insertAll kvs x).lookup k = x.lookup k := by
  induction kvs generalizing x with
  | nil => rfl
  | cons kv kvs ih =>
    rw [map_cons, mem_cons, not_or] at hk
    have hrest := ih hk.2 (x.insert kv.1 kv.2)
    rw [lookup_insert_of_ne _ hk.1] at hrest
    exact hrest

theorem lookup_insertAll_of_mem {k : κ} (hk : k ∈ kvs.map Prod.fst)
    (x y : Finmap (fun _ : κ => ν)) : (insertAll kvs x).lookup k = (insertAll kvs y).lookup k := by
  induction kvs generalizing x y with
  | nil => cases hk
  | cons kv kvs ih =>
    show (insertAll kvs (x.insert kv.1 kv.2)).lookup k =
      (insertAll kvs (y.insert kv.1 kv.2)).lookup k
    by_cases hrest : k ∈ kvs.map Prod.fst
    · exact ih hrest _ _
    · rw [map_cons, mem_cons] at hk
      obtain rfl := hk.resolve_right hrest
      rw [lookup_insertAll_of_notMem hrest, lookup_insertAll_of_notMem hrest,
        lookup_insert, lookup_insert]

/-- Entries that are written show the map they are written into only at the
keys they leave out. -/
theorem insertAll_eq_iff {x : Finmap (fun _ : κ => ν)} :
    insertAll kvs x = insertAll kvs ∅ ↔ ∀ k ∈ x.keys, k ∈ kvs.map Prod.fst := by
  refine ⟨fun heq k hk => ?_, fun h => ext_lookup (fun k => ?_)⟩
  · by_contra hout
    have hx := congrArg (Finmap.lookup k) heq
    rw [lookup_insertAll_of_notMem hout, lookup_insertAll_of_notMem hout, Finmap.lookup_empty,
      Finmap.lookup_eq_none] at hx
    exact hx (mem_keys.mp hk)
  · by_cases hin : k ∈ kvs.map Prod.fst
    · exact lookup_insertAll_of_mem hin x ∅
    · have hk : k ∉ x := fun hk => hin (h k (mem_keys.mpr hk))
      rw [lookup_insertAll_of_notMem hin, lookup_insertAll_of_notMem hin, lookup_empty,
        lookup_eq_none.mpr hk]

end InsertAll

namespace Decoder

section Scalar

variable {γ : Type}

theorem foldl_getD_of_unread {read : Json → Option γ} {js : List Json}
    (h : ∀ j ∈ js, read j = none) (x : γ) :
    js.foldl (fun x j => (read j).getD x) x = x := by
  induction js with
  | nil => rfl
  | cons j js ih =>
    rw [foldl_cons, h j mem_cons_self, Option.getD_none]
    exact ih (fun k hk => h k (mem_cons_of_mem _ hk))

/-- A number, string or boolean: `null` leaves it alone. -/
def scalar [DecidableEq γ] (zero : γ) (read : Json → Option γ) : Decoder γ γ where
  zero := zero
  decode x j := (read j).getD x
  fits j := j.isNull || (read j).isSome
  view := id
  fresh x js := js.any (fun j => (read j).isSome) || decide (x = zero)
  view_eq_iff x js _ := by
    rw [Bool.or_eq_true, decide_eq_true_iff, any_eq_true]
    by_cases hread : ∃ j ∈ js, (read j).isSome = true
    · obtain ⟨j, hj, hsome⟩ := hread
      obtain ⟨v, hv⟩ := Option.isSome_iff_exists.mp hsome
      have hforget : ∀ x y : γ, (read j).getD x = (read j).getD y := by
        intro x y
        rw [hv, Option.getD_some, Option.getD_some]
      exact ⟨fun _ => Or.inl ⟨j, hj, hsome⟩, fun _ => foldl_eq_of_forgets hj hforget x zero⟩
    · have hnone : ∀ j ∈ js, read j = none := by
        intro j hj
        exact Option.not_isSome_iff_eq_none.mp (fun hs => hread ⟨j, hj, hs⟩)
      rw [foldl_getD_of_unread hnone, foldl_getD_of_unread hnone]
      exact ⟨Or.inr, fun h => h.resolve_left hread⟩

def decodeOptional (zero : γ) (read : Json → Option γ) (x : Option γ) (j : Json) : Option γ :=
  if j.isNull then none else some ((read j).getD (x.getD zero))

/-- A pointer to a scalar: `null` clears it, and any other value allocates. -/
def optional (zero : γ) (read : Json → Option γ) : Decoder (Option γ) (Option γ) where
  zero := none
  decode := decodeOptional zero read
  fits j := j.isNull || (read j).isSome
  view := id
  fresh x js := !js.isEmpty || x.isNone
  view_eq_iff x js hfits := by
    cases js with
    | nil =>
      cases x <;> simp
    | cons j js =>
      have hforget : ∀ x y, decodeOptional zero read x j = decodeOptional zero read y j := by
        intro x y
        unfold decodeOptional
        rcases (Bool.or_eq_true _ _).mp (hfits j mem_cons_self) with hnull | hsome
        · rw [if_pos hnull, if_pos hnull]
        · obtain ⟨v, hv⟩ := Option.isSome_iff_exists.mp hsome
          rw [hv, Option.getD_some, Option.getD_some]
      exact ⟨fun _ => rfl, fun _ => foldl_eq_of_forgets mem_cons_self hforget x none⟩

end Scalar

section Map

variable {γ : Type}

/-- The entry a member stands for; a value that cannot be read is zero. -/
def entry (zero : γ) (read : Json → Option γ) (kv : String × Json) : String × γ :=
  (kv.1, (read kv.2).getD zero)

def decodeMap (zero : γ) (read : Json → Option γ) (x : Finmap (fun _ : String => γ)) :
    Json → Finmap (fun _ : String => γ)
  | .null => ∅
  | .obj ms => insertAll (ms.map (entry zero read)) x
  | _ => x

theorem foldl_decodeMap {zero : γ} {read : Json → Option γ} {js : List Json}
    (hnull : ∀ j ∈ js, j.isNull = false) (x : Finmap (fun _ : String => γ)) :
    js.foldl (decodeMap zero read) x =
      insertAll ((js.flatMap Json.members).map (entry zero read)) x := by
  induction js generalizing x with
  | nil => rfl
  | cons j js ih =>
    have hhead : decodeMap zero read x j = insertAll (j.members.map (entry zero read)) x := by
      cases j with
      | null => exact absurd (hnull _ mem_cons_self) (by decide)
      | _ => rfl
    rw [foldl_cons, ih (fun i hi => hnull i (mem_cons_of_mem _ hi)), hhead,
      flatMap_cons, map_append]
    exact foldl_append.symm

/-- A map from strings to scalars: an object adds its members to the map. -/
def mapOf (zero : γ) (read : Json → Option γ) :
    Decoder (Finmap (fun _ : String => γ)) (Finmap (fun _ : String => γ)) where
  zero := ∅
  decode := decodeMap zero read
  fits
    | .null => true
    | .obj ms => ms.all (fun kv => kv.2.isNull || (read kv.2).isSome)
    | _ => false
  view := id
  fresh x js := js.any Json.isNull ||
    decide (∀ k ∈ x.keys, k ∈ (js.flatMap Json.members).map Prod.fst)
  view_eq_iff x js _ := by
    rw [Bool.or_eq_true, decide_eq_true_iff, any_eq_true]
    by_cases hnull : ∃ j ∈ js, j.isNull = true
    · obtain ⟨j, hj, hn⟩ := hnull
      have hforget : ∀ x y, decodeMap zero read x j = decodeMap zero read y j := by
        intro x y
        cases j with
        | null => rfl
        | _ => cases hn
      exact ⟨fun _ => Or.inl ⟨j, hj, hn⟩, fun _ => foldl_eq_of_forgets hj hforget x ∅⟩
    · have hnone : ∀ j ∈ js, j.isNull = false := by
        intro j hj
        exact Bool.eq_false_iff.mpr (fun hn => hnull ⟨j, hj, hn⟩)
      have hkeys : ((js.flatMap Json.members).map (entry zero read)).map Prod.fst =
          (js.flatMap Json.members).map Prod.fst := by
        rw [map_map]
        rfl
      rw [or_iff_right hnull, id_eq, id_eq, foldl_decodeMap hnone, foldl_decodeMap hnone,
        insertAll_eq_iff, hkeys]

end Map

end Decoder

/-- A slice: its memory, zero where nothing was ever written, and its length. -/
structure Slice (α : Type) where
  slot : Nat → α
  len : Nat

def Slice.toList {α : Type} (s : Slice α) : List α :=
  (range s.len).map s.slot

namespace Decoder

section Slice

variable {α β : Type} (d : Decoder α β)

/-- The empty slice, with memory of its own. -/
def nilSlice : Slice α :=
  { slot := fun _ => d.zero, len := 0 }

/-- The elements are decoded in place; `null` and `[]` give a new slice. -/
def decodeSlice (s : Slice α) : Json → Slice α
  | .null | .arr [] => d.nilSlice
  | .arr es =>
    { slot := fun i => match es[i]? with
        | some e => d.decode (s.slot i) e
        | none => s.slot i
      len := es.length }
  | _ => s

/-- The values that are decoded into a slot. -/
def slotValues (i : Nat) (js : List Json) : List Json :=
  js.filterMap (fun j => j.elems[i]?)

variable {d}

theorem decodeSlice_of_elems {j : Json} (hj : j.elems ≠ []) (s : Slice α) :
    (d.decodeSlice s j).len = j.elems.length ∧
      ∀ i, (d.decodeSlice s j).slot i = (j.elems[i]?.toList).foldl d.decode (s.slot i) := by
  cases j with
  | arr es =>
    cases es with
    | nil => exact absurd rfl hj
    | cons e es =>
      refine ⟨rfl, fun i => ?_⟩
      show (match (e :: es)[i]? with
        | some e => d.decode (s.slot i) e
        | none => s.slot i) = ((e :: es)[i]?.toList).foldl d.decode (s.slot i)
      cases (e :: es)[i]? with
      | none | some e => rfl
  | _ => exact absurd rfl hj

theorem slot_foldl_decodeSlice {js : List Json} (hjs : ∀ j ∈ js, j.elems ≠ []) (s : Slice α)
    (i : Nat) :
    (js.foldl d.decodeSlice s).slot i = (slotValues i js).foldl d.decode (s.slot i) := by
  induction js generalizing s with
  | nil => rfl
  | cons j js ih =>
    have hvalues : slotValues i (j :: js) = j.elems[i]?.toList ++ slotValues i js := by
      unfold slotValues
      rw [filterMap_cons]
      cases j.elems[i]? with
      | none | some e => rfl
    rw [foldl_cons, ih (fun k hk => hjs k (mem_cons_of_mem _ hk)), hvalues,
      foldl_append, (decodeSlice_of_elems (hjs j mem_cons_self) s).2]

theorem len_foldl_decodeSlice {js : List Json} {j : Json} (hjs : ∀ j ∈ js, j.elems ≠ [])
    (hlast : js.getLast? = some j) (s : Slice α) :
    (js.foldl d.decodeSlice s).len = j.elems.length := by
  obtain ⟨rest, rfl⟩ := getLast?_eq_some_iff.mp hlast
  rw [foldl_append, foldl_cons, foldl_nil]
  exact (decodeSlice_of_elems (hjs j (by simp)) _).1

/-- A new slice forgets what was there. -/
theorem decodeSlice_forgets {j : Json} (hfits : j = .null ∨ ∃ es, j = .arr es)
    (hj : j.elems = []) (s t : Slice α) : d.decodeSlice s j = d.decodeSlice t j := by
  rcases hfits with rfl | ⟨es, rfl⟩
  · rfl
  · obtain rfl : es = [] := hj
    rfl

variable (d)

def sliceFits : Json → Bool
  | .null => true
  | .arr es => es.all d.fits
  | _ => false

theorem elems_fit {d : Decoder α β} {j : Json} (h : d.sliceFits j = true) :
    (j = .null ∨ ∃ es, j = .arr es) ∧ ∀ e ∈ j.elems, d.fits e = true := by
  cases j with
  | null => exact ⟨Or.inl rfl, fun e he => (nomatch he)⟩
  | arr es => exact ⟨Or.inr ⟨es, rfl⟩, all_eq_true.mp h⟩
  | _ => cases h

/-- A slice, observed as the list of its elements.  Unless it is made anew, an
element it has in the end must not show what was in its slot before. -/
def slice : Decoder (Slice α) (List β) where
  zero := d.nilSlice
  decode := d.decodeSlice
  fits := d.sliceFits
  view s := s.toList.map d.view
  fresh s js := js.any (fun j => j.elems.isEmpty) ||
    match js.getLast? with
    | none => s.len == 0
    | some j => (range j.elems.length).all (fun i => d.fresh (s.slot i) (slotValues i js))
  view_eq_iff s js hfits := by
    rw [Bool.or_eq_true, any_eq_true]
    by_cases hnew : ∃ j ∈ js, j.elems.isEmpty = true
    · obtain ⟨j, hj, hempty⟩ := hnew
      have hforget : ∀ s t, d.decodeSlice s j = d.decodeSlice t j :=
        decodeSlice_forgets (elems_fit (hfits j hj)).1 (isEmpty_iff.mp hempty)
      exact ⟨fun _ => Or.inl ⟨j, hj, hempty⟩,
        fun _ => by rw [foldl_eq_of_forgets hj hforget s d.nilSlice]⟩
    · have helems : ∀ j ∈ js, j.elems ≠ [] :=
        fun j hj hnil => hnew ⟨j, hj, isEmpty_iff.mpr hnil⟩
      rw [or_iff_right hnew]
      cases hlast : js.getLast? with
      | none =>
        obtain rfl := getLast?_eq_none_iff.mp hlast
        simp [Slice.toList, nilSlice]
      | some j =>
        rw [all_eq_true]
        unfold Slice.toList
        rw [len_foldl_decodeSlice helems hlast, len_foldl_decodeSlice helems hlast,
          map_map, map_map, map_inj_left]
        refine forall₂_congr (fun i _ => ?_)
        have hslots : ∀ e ∈ slotValues i js, d.fits e = true := by
          intro e he
          obtain ⟨k, hk, hki⟩ := mem_filterMap.mp he
          exact (elems_fit (hfits k hk)).2 e (mem_of_getElem? hki)
        rw [comp_apply, comp_apply, slot_foldl_decodeSlice helems,
          slot_foldl_decodeSlice helems]
        exact d.view_eq_iff (s.slot i) (slotValues i js) hslots

end Slice

section Record

variable {F : Type} [DecidableEq F] {τ β : F → Type}

/-- Letters are the same whatever their case; the Kelvin sign and the long s
are the two letters outside ASCII that fold into it. -/
def foldName (s : String) : List Char :=
  s.toList.map (fun c => if c = 'K' then 'K' else if c = 'ſ' then 'S' else c.toUpper)

/-- The field a key names: the one with this name, or with this name up to case. -/
def field? (fields : List F) (name : F → String) (key : String) : Option F :=
  (fields.find? (fun f => name f = key)).or
    (fields.find? (fun f => foldName (name f) = foldName key))

variable (fields : List F) (name : F → String) (d : ∀ f, Decoder (τ f) (β f))

/-- Decode one member of an object into the field it names. -/
def assign (x : ∀ f, τ f) (kv : String × Json) : ∀ f, τ f :=
  match field? fields name kv.1 with
  | some f => update x f ((d f).decode (x f) kv.2)
  | none => x

def decodeRecord (x : ∀ f, τ f) : Json → ∀ f, τ f
  | .obj members => members.foldl (assign fields name d) x
  | _ => x

def recordFits : Json → Bool
  | .null => true
  | .obj members => members.all (fun kv =>
    match field? fields name kv.1 with
    | some f => (d f).fits kv.2
    | none => true)
  | _ => false

/-- The values the members of an object give to a field. -/
def memberValues (f : F) (members : List (String × Json)) : List Json :=
  members.filterMap (fun kv => if field? fields name kv.1 = some f then some kv.2 else none)

def fieldValues (f : F) : Json → List Json
  | .obj members => memberValues fields name f members
  | _ => []

variable {fields name d}

theorem foldl_assign_apply (members : List (String × Json)) (x : ∀ f, τ f) (f : F) :
    members.foldl (assign fields name d) x f =
      (memberValues fields name f members).foldl (d f).decode (x f) := by
  induction members generalizing x with
  | nil => rfl
  | cons kv members ih =>
    rw [foldl_cons, ih]
    unfold memberValues assign
    rw [filterMap_cons]
    cases hfield : field? fields name kv.1 with
    | none => rw [if_neg (by simp)]
    | some g =>
      by_cases hg : g = f
      · subst hg
        rw [if_pos rfl, foldl_cons]
        simp only [update_self]
      · rw [if_neg (fun h => hg (Option.some.inj h))]
        simp only [update_of_ne (Ne.symm hg)]

/-- Each field is decoded on its own, from the values its keys have. -/
theorem foldl_decodeRecord_apply (js : List Json) (x : ∀ f, τ f) (f : F) :
    js.foldl (decodeRecord fields name d) x f =
      (js.flatMap (fieldValues fields name f)).foldl (d f).decode (x f) := by
  induction js generalizing x with
  | nil => rfl
  | cons j js ih =>
    have hhead : decodeRecord fields name d x j f =
        (fieldValues fields name f j).foldl (d f).decode (x f) := by
      cases j with
      | obj members => exact foldl_assign_apply members x f
      | _ => rfl
    rw [foldl_cons, ih, flatMap_cons, foldl_append, hhead]

theorem fieldValues_fit {j : Json} (h : recordFits fields name d j = true) {f : F} {v : Json}
    (hv : v ∈ fieldValues fields name f j) : (d f).fits v = true := by
  cases j with
  | obj members =>
    obtain ⟨kv, hkv, heq⟩ := mem_filterMap.mp hv
    have hall := all_eq_true.mp h kv hkv
    by_cases hfield : field? fields name kv.1 = some f
    · rw [if_pos hfield] at heq
      cases heq
      rw [hfield] at hall
      exact hall
    · rw [if_neg hfield] at heq
      cases heq
  | _ => cases hv

variable (name d)

/-- A struct: its fields, their names in the text and their types. -/
def record (hfields : ∀ f, f ∈ fields) : Decoder (∀ f, τ f) (∀ f, β f) where
  zero f := (d f).zero
  decode := decodeRecord fields name d
  fits := recordFits fields name d
  view x f := (d f).view (x f)
  fresh x js := fields.all (fun f =>
    (d f).fresh (x f) (js.flatMap (fieldValues fields name f)))
  view_eq_iff x js hfits := by
    rw [funext_iff, all_eq_true]
    refine ⟨fun h f _ => ?_, fun h f => ?_⟩
    all_goals
      have hvalues : ∀ v ∈ js.flatMap (fieldValues fields name f), (d f).fits v = true := by
        intro v hv
        obtain ⟨j, hj, hv⟩ := mem_flatMap.mp hv
        exact fieldValues_fit (hfits j hj) hv
    · have hf := h f
      rw [foldl_decodeRecord_apply, foldl_decodeRecord_apply] at hf
      exact ((d f).view_eq_iff (x f) _ hvalues).mp hf
    · rw [foldl_decodeRecord_apply, foldl_decodeRecord_apply]
      exact ((d f).view_eq_iff (x f) _ hvalues).mpr (h f (hfields f))

end Record

/-- The same type, for a field that is not observed. -/
def unobserved {α β : Type} (d : Decoder α β) : Decoder α Unit where
  zero := d.zero
  decode := d.decode
  fits := d.fits
  view _ := ()
  fresh _ _ := true
  view_eq_iff _ _ _ := ⟨fun _ => rfl, fun _ => rfl⟩

end Decoder

end JsonDecode
