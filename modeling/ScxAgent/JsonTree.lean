import Mathlib.Data.Int.Cast.Basic
import Mathlib.Tactic.NormNum.Basic
import ScxAgent.ExceptRules

/-!
# JSON values with floating-point numbers

Values whose numbers are integers or elements of a type `F` of floating-point numbers. A library
that prints and parses them keeps everything but these: a number may come back as another one, which
`drift` names. Derived deserializers read records from objects, whose unknown members they skip.
-/

inductive JsonTree (F : Type) where
  | null
  | bool (b : Bool)
  | int (n : ℤ)
  | float (x : F)
  | str (s : String)
  | arr (items : List (JsonTree F))
  | obj (members : List (String × JsonTree F))

namespace JsonTree

variable {F α β : Type}

/-! ## The numbers of a value -/

mutual

/-- The value with every floating-point number replaced. -/
def mapFloat (f : F → F) : JsonTree F → JsonTree F
  | .null => .null
  | .bool b => .bool b
  | .int n => .int n
  | .float x => .float (f x)
  | .str s => .str s
  | .arr items => .arr (mapItems f items)
  | .obj members => .obj (mapMembers f members)

def mapItems (f : F → F) : List (JsonTree F) → List (JsonTree F)
  | [] => []
  | item :: items => mapFloat f item :: mapItems f items

def mapMembers (f : F → F) : List (String × JsonTree F) → List (String × JsonTree F)
  | [] => []
  | (name, value) :: members => (name, mapFloat f value) :: mapMembers f members

end

mutual

/-- The floating-point numbers of a value. -/
def floats : JsonTree F → List F
  | .float x => [x]
  | .arr items => itemFloats items
  | .obj members => memberFloats members
  | _ => []

def itemFloats : List (JsonTree F) → List F
  | [] => []
  | item :: items => floats item ++ itemFloats items

def memberFloats : List (String × JsonTree F) → List F
  | [] => []
  | (_, value) :: members => floats value ++ memberFloats members

end

theorem mapItems_eq_map (f : F → F) (items : List (JsonTree F)) :
    mapItems f items = items.map (mapFloat f) := by
  induction items with
  | nil => rfl
  | cons item items ih => rw [mapItems, ih, List.map_cons]

mutual

theorem mapFloat_eq_self_iff (f : F → F) :
    ∀ tree : JsonTree F, mapFloat f tree = tree ↔ ∀ x ∈ floats tree, f x = x
  | .null | .bool _ | .int _ | .str _ => by simp [mapFloat, floats]
  | .float x => by simp [mapFloat, floats]
  | .arr items => by
    rw [mapFloat, floats, JsonTree.arr.injEq]
    exact mapItems_eq_self_iff f items
  | .obj members => by
    rw [mapFloat, floats, JsonTree.obj.injEq]
    exact mapMembers_eq_self_iff f members

theorem mapItems_eq_self_iff (f : F → F) :
    ∀ items : List (JsonTree F), mapItems f items = items ↔ ∀ x ∈ itemFloats items, f x = x
  | [] => by simp [mapItems, itemFloats]
  | item :: items => by
    rw [mapItems, itemFloats, List.cons.injEq, mapFloat_eq_self_iff f item,
      mapItems_eq_self_iff f items]
    simp only [List.mem_append, or_imp, forall_and]

theorem mapMembers_eq_self_iff (f : F → F) :
    ∀ members : List (String × JsonTree F),
      mapMembers f members = members ↔ ∀ x ∈ memberFloats members, f x = x
  | [] => by simp [mapMembers, memberFloats]
  | (name, value) :: members => by
    rw [mapMembers, memberFloats, List.cons.injEq, Prod.mk.injEq, mapFloat_eq_self_iff f value,
      mapMembers_eq_self_iff f members]
    simp only [true_and, List.mem_append, or_imp, forall_and]

end

/-! ## Text -/

end JsonTree

/-- A library that prints values and parses texts. `drift` is the number that a printed number is
parsed as. -/
class JsonLibrary (F : Type) where
  print : JsonTree F → List Char
  parse : List Char → Except String (JsonTree F)
  drift : F → F

/-- Printing and parsing keep everything but floating-point numbers, and a printed value is one line
that is not blank. -/
class LawfulJsonLibrary (F : Type) [JsonLibrary F] : Prop where
  parse_print : ∀ tree : JsonTree F,
    JsonLibrary.parse (JsonLibrary.print tree) = .ok (tree.mapFloat JsonLibrary.drift)
  one_line : ∀ tree : JsonTree F, '\n' ∉ JsonLibrary.print tree ∧ '\r' ∉ JsonLibrary.print tree
  not_blank : ∀ tree : JsonTree F, ∃ c ∈ JsonLibrary.print tree, 0x21 ≤ c.toNat ∧ c.toNat ≤ 0x7e

namespace JsonTree

variable {F α β : Type}

/-! ## Records -/

/-- A member of an object under its name; a record must not have it twice. -/
def field (name : String) : JsonTree F → Except String (Option (JsonTree F))
  | .obj members =>
    match members.filter fun member => member.1 == name with
    | [] => .ok none
    | [(_, value)] => .ok (some value)
    | _ => .error s!"duplicate field: {name}"
  | _ => .error "invalid type: expected an object"

/-- A field that has to be there. -/
def required (name : String) (decode : JsonTree F → Except String α) (tree : JsonTree F) :
    Except String α := do
  match ← field name tree with
  | some value => decode value
  | none => .error s!"missing field: {name}"

def nullable (decode : JsonTree F → Except String α) : Option (JsonTree F) → Except String (Option α)
  | none | some .null => .ok none
  | some value => do return some (← decode value)

/-- A field that may be absent or null. -/
def optional (name : String) (decode : JsonTree F → Except String α) (tree : JsonTree F) :
    Except String (Option α) := do nullable decode (← field name tree)

/-- A field with a default. -/
def defaulted (name : String) (value : α) (decode : JsonTree F → Except String α)
    (tree : JsonTree F) : Except String α := do
  match ← field name tree with
  | none => .ok value
  | some value => decode value

def text : JsonTree F → Except String String
  | .str s => .ok s
  | _ => .error "invalid type: expected a string"

def boolean : JsonTree F → Except String Bool
  | .bool b => .ok b
  | _ => .error "invalid type: expected a boolean"

/-- A word of 64 bits. -/
def word : JsonTree F → Except String ℕ
  | .int n => if 0 ≤ n ∧ n.toNat < 2 ^ 64 then .ok n.toNat else .error "invalid value: not a u64"
  | _ => .error "invalid type: expected u64"

/-- An unsigned number of a fixed width. -/
def unsigned (width : ℕ) : JsonTree F → Except String (BitVec width)
  | .int n =>
    if 0 ≤ n ∧ n.toNat < 2 ^ width then .ok (BitVec.ofNat width n.toNat)
    else .error "invalid value: integer out of range"
  | _ => .error "invalid type: expected an integer"

def variant (variants : List (String × α)) : JsonTree F → Except String α
  | .str s =>
    match variants.lookup s with
    | some value => .ok value
    | none => .error s!"unknown variant: {s}"
  | _ => .error "invalid type: expected a variant"

def items (decode : JsonTree F → Except String α) : JsonTree F → Except String (List α)
  | .arr trees => trees.mapM decode
  | _ => .error "invalid type: expected a sequence"

/-! ## What the combinators accept -/

@[simp] theorem nullable_none (decode : JsonTree F → Except String α) :
    nullable decode none = .ok none := rfl

theorem unsigned_toNat {width : ℕ} (n : BitVec width) :
    unsigned width (.int n.toNat : JsonTree F) = .ok n := by
  rw [unsigned, Int.toNat_natCast, if_pos ⟨Int.natCast_nonneg _, n.isLt⟩, BitVec.ofNat_toNat,
    BitVec.setWidth_eq]

theorem word_natCast {n : ℕ} (h : n < 2 ^ 64) : word (.int n : JsonTree F) = .ok n := by
  rw [word, Int.toNat_natCast, if_pos ⟨Int.natCast_nonneg n, h⟩]

end JsonTree
