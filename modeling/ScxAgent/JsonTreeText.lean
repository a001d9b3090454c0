import ScxAgent.JsonText
import ScxAgent.JsonTree

/-!
# A library for JSON values with floating-point numbers

Values are written as compact JSON text. An array, a negative number and a floating-point number are
arrays whose first element says which of them it is. A floating-point number is written as a natural
number, and the number that is read from it may be another one.
-/

namespace JsonText

open List

/-! ## Compact text is one line -/

theorem printable_escape {c d : Char} (h : d ∈ escape c) : 0x20 ≤ d.toNat := by
  have hdigit : ∀ n < 16, 0x20 ≤ (Nat.digitChar n).toNat := by decide
  unfold escape at h
  split at h
  · simp only [mem_cons, not_mem_nil, or_false] at h
    rcases h with rfl | rfl <;> decide
  iterate 6
    split at h
    · simp only [mem_cons, not_mem_nil, or_false] at h
      rcases h with rfl | rfl <;> decide
  split at h
  · rename_i hcontrol
    simp only [mem_cons, not_mem_nil, or_false] at h
    rcases h with rfl | rfl | rfl | rfl | rfl | rfl
    · decide
    · decide
    · decide
    · decide
    · exact hdigit _ (by omega)
    · exact hdigit _ (by omega)
  · rename_i hprintable
    rw [mem_singleton.mp h]
    omega

theorem printable_quote {s : String} {c : Char} (h : c ∈ quote s) : 0x20 ≤ c.toNat := by
  simp only [quote, mem_append, mem_cons, mem_flatMap, not_mem_nil,
    or_false] at h
  rcases h with (rfl | ⟨d, -, hd⟩) | rfl
  · decide
  · exact printable_escape hd
  · decide

theorem printable_of_isDigit {c : Char} (h : c.isDigit = true) :
    0x30 ≤ c.toNat ∧ c.toNat ≤ 0x39 := by
  simp only [Char.isDigit, Bool.and_eq_true, decide_eq_true_eq] at h
  exact ⟨UInt32.le_iff_toNat_le.mp h.1, UInt32.le_iff_toNat_le.mp h.2⟩

@[simp] theorem compact_newline (level : ℕ) : compact.newline level = [] := rfl

@[simp] theorem compact_colon : compact.colon = [':'] := rfl

mutual

theorem printable_render :
    ∀ (json : Json) (level : ℕ), ∀ c ∈ render compact level json, 0x20 ≤ c.toNat
  | .null, _, c, hc | .bool true, _, c, hc | .bool false, _, c, hc | .arr [], _, c, hc
  | .obj [], _, c, hc => by
    rw [render] at hc
    revert c
    rw [← forall_iff_forall_mem]
    decide
  | .num n, _, c, hc => by
    rw [render] at hc
    have := printable_of_isDigit (Nat.isDigit_of_mem_toDigits (by decide) (by decide) hc)
    omega
  | .str s, _, c, hc => by
    rw [render] at hc
    exact printable_quote hc
  | .arr (item :: items), level, c, hc => by
    simp only [render, compact_newline, append_nil, nil_append, cons_append,
      append_assoc, mem_cons, mem_append, not_mem_nil, or_false] at hc
    rcases hc with rfl | hc | hc | rfl
    · decide
    · exact printable_render item _ c hc
    · exact printable_renderItems items _ c hc
    · decide
  | .obj ((name, value) :: members), level, c, hc => by
    simp only [render, compact_newline, compact_colon, append_nil, nil_append,
      cons_append, append_assoc, mem_cons, mem_append, not_mem_nil,
      or_false] at hc
    rcases hc with rfl | hc | rfl | hc | hc | rfl
    · decide
    · exact printable_quote hc
    · decide
    · exact printable_render value _ c hc
    · exact printable_renderMembers members _ c hc
    · decide

theorem printable_renderItems :
    ∀ (items : List Json) (level : ℕ), ∀ c ∈ renderItems compact level items, 0x20 ≤ c.toNat
  | [], _, c, hc => by
    rw [renderItems] at hc
    exact absurd hc not_mem_nil
  | item :: items, level, c, hc => by
    simp only [renderItems, compact_newline, nil_append, cons_append, mem_cons,
      mem_append] at hc
    rcases hc with rfl | hc | hc
    · decide
    · exact printable_render item _ c hc
    · exact printable_renderItems items _ c hc

theorem printable_renderMembers :
    ∀ (members : List (String × Json)) (level : ℕ),
      ∀ c ∈ renderMembers compact level members, 0x20 ≤ c.toNat
  | [], _, c, hc => by
    rw [renderMembers] at hc
    exact absurd hc not_mem_nil
  | (name, value) :: members, level, c, hc => by
    simp only [renderMembers, compact_newline, compact_colon, nil_append, cons_append,
      append_assoc, mem_cons, mem_append] at hc
    rcases hc with rfl | hc | rfl | hc | hc
    · decide
    · exact printable_quote hc
    · decide
    · exact printable_render value _ c hc
    · exact printable_renderMembers members _ c hc

end

/-- A value has a character that is no white space. -/
theorem visible_render (layout : Layout) (level : ℕ) (json : Json) :
    ∃ c ∈ render layout level json, 0x21 ≤ c.toNat ∧ c.toNat ≤ 0x7e := by
  match json with
  | .null => exact ⟨'n', by simp [render], by decide⟩
  | .bool true => exact ⟨'t', by simp [render], by decide⟩
  | .bool false => exact ⟨'f', by simp [render], by decide⟩
  | .arr [] | .arr (_ :: _) => exact ⟨'[', by simp [render], by decide⟩
  | .obj [] | .obj (_ :: _) => exact ⟨'\x7b', by simp [render], by decide⟩
  | .str s => exact ⟨'"', by simp [render, quote], by decide⟩
  | .num n =>
    obtain ⟨c, cs, hdigits, hdigit, -⟩ := toDigits_eq_cons n
    have := printable_of_isDigit hdigit
    exact ⟨c, by rw [render, hdigits]; exact List.mem_cons_self, by omega⟩

end JsonText

namespace JsonTree

variable {F : Type}

/-! ## Trees as JSON with natural numbers -/

mutual

def toJson (code : F → ℕ) : JsonTree F → Json
  | .null => .null
  | .bool b => .bool b
  | .int n => if 0 ≤ n then .num n.toNat else .arr [.num 1, .num (-n).toNat]
  | .float x => .arr [.num 2, .num (code x)]
  | .str s => .str s
  | .arr items => .arr (.num 0 :: toJsonItems code items)
  | .obj members => .obj (toJsonMembers code members)

def toJsonItems (code : F → ℕ) : List (JsonTree F) → List Json
  | [] => []
  | item :: items => toJson code item :: toJsonItems code items

def toJsonMembers (code : F → ℕ) : List (String × JsonTree F) → List (String × Json)
  | [] => []
  | (name, value) :: members => (name, toJson code value) :: toJsonMembers code members

end

mutual

def ofJson (number : ℕ → F) : Json → Option (JsonTree F)
  | .null => some .null
  | .bool b => some (.bool b)
  | .num n => some (.int n)
  | .str s => some (.str s)
  | .arr (.num 0 :: items) => (ofJsonItems number items).map .arr
  | .arr [.num 1, .num n] => some (.int (-n))
  | .arr [.num 2, .num n] => some (.float (number n))
  | .arr _ => none
  | .obj members => (ofJsonMembers number members).map .obj

def ofJsonItems (number : ℕ → F) : List Json → Option (List (JsonTree F))
  | [] => some []
  | item :: items => do return (← ofJson number item) :: (← ofJsonItems number items)

def ofJsonMembers (number : ℕ → F) : List (String × Json) → Option (List (String × JsonTree F))
  | [] => some []
  | (name, value) :: members => do
    return (name, ← ofJson number value) :: (← ofJsonMembers number members)

end

mutual

theorem ofJson_toJson (code : F → ℕ) (number : ℕ → F) :
    ∀ tree : JsonTree F,
      ofJson number (toJson code tree) = some (tree.mapFloat fun x => number (code x))
  | .null | .bool _ | .str _ => by simp only [toJson, ofJson, mapFloat]
  | .float x => by simp only [toJson, ofJson, mapFloat]
  | .int n => by
    rw [toJson, mapFloat]
    split
    · rw [ofJson, Int.toNat_of_nonneg (by assumption)]
    · rw [ofJson, Int.toNat_of_nonneg (by omega), neg_neg]
  | .arr items => by
    rw [toJson, ofJson, mapFloat, ofJsonItems_toJsonItems code number items, Option.map_some]
  | .obj members => by
    rw [toJson, ofJson, mapFloat, ofJsonMembers_toJsonMembers code number members, Option.map_some]

theorem ofJsonItems_toJsonItems (code : F → ℕ) (number : ℕ → F) :
    ∀ items : List (JsonTree F), ofJsonItems number (toJsonItems code items) =
      some (mapItems (fun x => number (code x)) items)
  | [] => by simp only [toJsonItems, ofJsonItems, mapItems]
  | item :: items => by
    rw [toJsonItems, ofJsonItems, mapItems, ofJson_toJson code number item,
      ofJsonItems_toJsonItems code number items]
    rfl

theorem ofJsonMembers_toJsonMembers (code : F → ℕ) (number : ℕ → F) :
    ∀ members : List (String × JsonTree F), ofJsonMembers number (toJsonMembers code members) =
      some (mapMembers (fun x => number (code x)) members)
  | [] => by simp only [toJsonMembers, ofJsonMembers, mapMembers]
  | (name, value) :: members => by
    rw [toJsonMembers, ofJsonMembers, mapMembers, ofJson_toJson code number value,
      ofJsonMembers_toJsonMembers code number members]
    rfl

end

/-! ## The library -/

/-- Numbers are written with `code` and read with `number`. -/
@[reducible] def textLibrary (code : F → ℕ) (number : ℕ → F) : JsonLibrary F where
  print tree := JsonText.render JsonText.compact 0 (toJson code tree)
  parse text :=
    match (JsonText.read (String.ofList text)).bind (ofJson number) with
    | some tree => .ok tree
    | none => .error "expected value"
  drift x := number (code x)

theorem textLibrary_lawful (code : F → ℕ) (number : ℕ → F) :
    @LawfulJsonLibrary F (textLibrary code number) := by
  let _ := textLibrary code number
  refine ⟨fun tree => ?_, fun tree => ⟨fun h => ?_, fun h => ?_⟩, fun tree => ?_⟩
  · have hspace : JsonText.Spaces "".toList := by simp [JsonText.Spaces]
    have hread := JsonText.read_write JsonText.compact_spaced (toJson code tree) hspace
    rw [String.append_empty, JsonText.write] at hread
    simp only [JsonLibrary.parse, JsonLibrary.print, JsonLibrary.drift, hread, Option.bind_some,
      ofJson_toJson]
  · exact absurd (JsonText.printable_render _ _ _ h) (by decide)
  · exact absurd (JsonText.printable_render _ _ _ h) (by decide)
  · exact JsonText.visible_render _ _ _

end JsonTree
