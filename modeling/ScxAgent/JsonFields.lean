import Mathlib
import ScxAgent.JsonText

/-!
# Records in JSON values

How derived deserializers read records and enumerations. A record is an object that names each of
its fields at most once and no other, or a list of the fields in their order; an optional field may
be left out or be null. An enumeration without payload is its name, or an object that maps the name
to null.
-/

namespace JsonText

open Std.ExtTreeMap

variable {α : Type}

/-- The fields of a record under their names, in the order of the names. -/
def fields (names : List String) : Json → Option (List (Option Json))
  | .obj members =>
    if (members.map Prod.fst).Nodup ∧ ∀ name ∈ members.map Prod.fst, name ∈ names then
      some (names.map fun name => members.lookup name)
    else none
  | .arr items =>
    if items.length ≤ names.length then
      some (items.map some ++ List.replicate (names.length - items.length) none)
    else none
  | _ => none

def required (decode : Json → Option α) (field : Option Json) : Option α := field.bind decode

def optional (decode : Json → Option α) : Option Json → Option (Option α)
  | none | some .null => some none
  | some json => (decode json).map some

def text : Json → Option String
  | .str s => some s
  | _ => none

def natural (bound : ℕ) : Json → Option ℕ
  | .num n => if n < bound then some n else none
  | _ => none

def word32 (json : Json) : Option UInt32 := (natural (2 ^ 32) json).map UInt32.ofNat

def word64 (json : Json) : Option UInt64 := (natural (2 ^ 64) json).map UInt64.ofNat

def variant (variants : List (String × α)) : Json → Option α
  | .str s => variants.lookup s
  | .obj [(s, .null)] => variants.lookup s
  | _ => none

def sequence (decode : Json → Option α) : Json → Option (List α)
  | .arr items => items.mapM decode
  | _ => none

theorem word32_toNat (w : UInt32) : word32 (.num w.toNat) = some w := by
  rw [word32, natural, if_pos w.toNat_lt, Option.map_some, UInt32.ofNat_toNat]

theorem word64_toNat (w : UInt64) : word64 (.num w.toNat) = some w := by
  rw [word64, natural, if_pos w.toNat_lt, Option.map_some, UInt64.ofNat_toNat]

theorem sequence_map {encode : α → Json} {decode : Json → Option α}
    (h : ∀ a, decode (encode a) = some a) (items : List α) :
    sequence decode (.arr (items.map encode)) = some items := by
  rw [sequence]
  induction items with
  | nil => rfl
  | cons item items ih =>
    rw [List.map_cons, List.mapM_cons, h, ih]
    rfl

theorem insertMany_toList {κ : Type} [DecidableEq κ] {cmp : κ → κ → Ordering} [Std.TransCmp cmp]
    [Std.LawfulEqCmp cmp] (entries : Std.ExtTreeMap κ α cmp) :
    (∅ : Std.ExtTreeMap κ α cmp).insertMany entries.toList = entries := by
  apply ext_getElem?
  intro k
  cases hk : entries[k]? with
  | some v =>
    exact getElem?_insertMany_list_of_mem Std.ReflCmp.compare_self
      distinct_keys_toList (mem_toList_iff_getElem?_eq_some.mpr hk)
  | none =>
    have habsent : (entries.toList.map Prod.fst).contains k = false := by
      rw [Bool.eq_false_iff]
      intro hmem
      obtain ⟨⟨k', v⟩, hpair, rfl⟩ := List.mem_map.mp (List.contains_iff_mem.mp hmem)
      rw [mem_toList_iff_getElem?_eq_some.mp hpair] at hk
      cases hk
    rw [getElem?_insertMany_list_of_contains_eq_false habsent]
    exact getElem?_empty

/-- The value in a file. -/
def readBytes (bytes : ByteArray) : Option Json := (String.fromUTF8? bytes).bind read

theorem readBytes_toByteArray (s : String) : readBytes s.toByteArray = read s := by
  have hvalid : s.toByteArray.IsValidUTF8 := s.isValidUTF8
  simp [readBytes, String.fromUTF8?, hvalid, String.fromUTF8]

end JsonText
