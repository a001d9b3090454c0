import Mathlib

/-!
# Validated text identifiers

The string newtypes of `domain/ids.rs`. A value of `TextId label maxLen` carries the
proof that `validateIdentifier` accepts it, so an identifier that the source's
constructor would refuse cannot be written down.
-/

namespace ScxAgent

open List String

/-- `char::is_whitespace`: the Unicode `White_Space` property. -/
def isWhitespace (c : Char) : Bool :=
  let n := c.toNat
  (9 ≤ n && n ≤ 13) || n == 0x20 || n == 0x85 || n == 0xa0 || n == 0x1680 ||
    (0x2000 ≤ n && n ≤ 0x200a) || n == 0x2028 || n == 0x2029 || n == 0x202f ||
    n == 0x205f || n == 0x3000

/-- `char::is_control`: the Unicode category `Cc`. -/
def isControl (c : Char) : Bool :=
  c.toNat < 0x20 || (0x7f ≤ c.toNat && c.toNat ≤ 0x9f)

/-- `str::trim`. -/
def trim (s : String) : String :=
  String.ofList ((s.toList.dropWhile isWhitespace).reverse.dropWhile isWhitespace).reverse

def validateIdentifier (label value : String) (maxLen : ℕ) : Except String Unit :=
  if value.isEmpty then .error s!"{label} must not be empty"
  else if trim value ≠ value then .error s!"{label} must not have surrounding whitespace"
  else if value.utf8ByteSize > maxLen then .error s!"{label} exceeds {maxLen} bytes"
  else if value.toList.any isControl then .error s!"{label} must not contain control characters"
  else .ok ()

/-- The printing characters of ASCII without the space. -/
def isVisible (c : Char) : Bool :=
  0x21 ≤ c.toNat && c.toNat ≤ 0x7e

theorem not_whitespace_of_visible {c : Char} (h : isVisible c = true) : isWhitespace c = false := by
  simp only [isVisible, Bool.and_eq_true, decide_eq_true_eq] at h
  simp only [isWhitespace, Bool.or_eq_false_iff, Bool.and_eq_false_iff, decide_eq_false_iff_not,
    beq_eq_false_iff_ne]
  omega

theorem not_control_of_visible {c : Char} (h : isVisible c = true) : isControl c = false := by
  simp only [isVisible, Bool.and_eq_true, decide_eq_true_eq] at h
  simp only [isControl, Bool.or_eq_false_iff, Bool.and_eq_false_iff, decide_eq_false_iff_not]
  omega

theorem utf8ByteSize_of_visible {s : String} (h : ∀ c ∈ s.toList, isVisible c = true) :
    s.utf8ByteSize = s.toList.length := by
  rw [← s.ofList_toList, utf8ByteSize_ofList, toList_ofList]
  generalize s.toList = cs at h
  induction cs with
  | nil => rfl
  | cons c cs ih =>
    have hc := h c mem_cons_self
    have hsize : c.utf8Size = 1 := by
      simp only [isVisible, Bool.and_eq_true, decide_eq_true_eq] at hc
      rw [Char.utf8Size_eq_one_iff, UInt32.le_iff_toNat_le]
      exact hc.2.trans (by decide)
    rw [utf8Len_cons, ih fun d hd => h d (mem_cons_of_mem c hd), hsize,
      length_cons]

theorem dropWhile_eq_self_of_trim {s : String} (h : trim s = s) :
    s.toList.dropWhile isWhitespace = s.toList := by
  have hlist := congrArg (fun s => s.toList.length) h
  simp only [trim, toList_ofList, length_reverse] at hlist
  have houter := ((s.toList.dropWhile isWhitespace).reverse.dropWhile_suffix
    isWhitespace).length_le
  rw [length_reverse] at houter
  have hsuffix := s.toList.dropWhile_suffix isWhitespace
  exact hsuffix.eq_of_length_le (by omega)

theorem trim_eq_self {s : String} (hfront : s.toList.dropWhile isWhitespace = s.toList)
    (hback : s.toList.reverse.dropWhile isWhitespace = s.toList.reverse) : trim s = s := by
  simp [trim, hfront, hback]

theorem dropWhile_of_head {p : Char → Bool} {cs : List Char} (h : ∀ c ∈ cs.head?, p c = false) :
    cs.dropWhile p = cs := by
  cases cs with
  | nil => rfl
  | cons c cs => rw [dropWhile_cons, h c rfl, if_neg Bool.false_ne_true]

structure TextId (label : String) (maxLen : ℕ) where
  value : String
  valid : validateIdentifier label value maxLen = .ok ()
  deriving DecidableEq

namespace TextId

variable {label : String} {maxLen : ℕ}

instance : ToString (TextId label maxLen) := ⟨value⟩

instance : Ord (TextId label maxLen) := ⟨compareOn value⟩

instance : Std.TransOrd (TextId label maxLen) :=
  inferInstanceAs (Std.TransCmp (compareOn (@value label maxLen)))

theorem ext_value {a b : TextId label maxLen} (h : a.value = b.value) : a = b := by
  cases a
  cases b
  cases h
  rfl

instance : Std.LawfulEqOrd (TextId label maxLen) where
  eq_of_compare h := ext_value (Std.LawfulEqOrd.eq_of_compare h)

def new (value : String) : Except String (TextId label maxLen) :=
  match h : validateIdentifier label value maxLen with
  | .ok () => .ok ⟨value, h⟩
  | .error message => .error message

theorem new_eq_ok {value : String} {id : TextId label maxLen} :
    new value = .ok id ↔ id.value = value := by
  constructor
  · intro h
    unfold new at h
    split at h
    · cases h
      rfl
    · cases h
  · rintro rfl
    unfold new
    split
    · rfl
    · rename_i message hbad
      rw [id.valid] at hbad
      cases hbad

theorem new_ok {value : String} (hne : value.toList ≠ [])
    (hfront : ∀ c ∈ value.toList.head?, isWhitespace c = false)
    (hback : ∀ c ∈ value.toList.getLast?, isWhitespace c = false)
    (hplain : ∀ c ∈ value.toList, isControl c = false) (hsize : value.utf8ByteSize ≤ maxLen) :
    ∃ id : TextId label maxLen, new value = .ok id := by
  have htrim : trim value = value := by
    apply trim_eq_self (dropWhile_of_head hfront) (dropWhile_of_head _)
    rwa [head?_reverse]
  have hvalid : validateIdentifier label value maxLen = .ok () := by
    unfold validateIdentifier
    rw [if_neg, if_neg (not_not.mpr htrim), if_neg hsize.not_gt, if_neg]
    · simpa using hplain
    · rw [String.isEmpty_iff]
      rintro rfl
      exact hne rfl
  exact ⟨⟨value, hvalid⟩, new_eq_ok.mpr rfl⟩

/-- The text of an identifier starts with no white space and has no control characters. -/
theorem plain (id : TextId label maxLen) :
    (∀ c ∈ id.value.toList.head?, isWhitespace c = false) ∧
      (∀ c ∈ id.value.toList, isControl c = false) ∧ id.value.utf8ByteSize ≤ maxLen := by
  have hid := id.valid
  unfold validateIdentifier at hid
  split_ifs at hid with hempty htrim hsize hcontrol
  refine ⟨?_, by simpa using hcontrol, not_lt.mp hsize⟩
  intro c hc
  have hhead := head?_dropWhile_not isWhitespace id.value.toList
  rw [dropWhile_eq_self_of_trim (not_not.mp htrim), hc] at hhead
  simpa using hhead

theorem new_ok_of_visible {value : String} (hne : value.toList ≠ [])
    (hvisible : ∀ c ∈ value.toList, isVisible c = true) (hlen : value.toList.length ≤ maxLen) :
    ∃ id : TextId label maxLen, new value = .ok id :=
  new_ok hne (fun c hc => not_whitespace_of_visible (hvisible c (mem_of_mem_head? hc)))
    (fun c hc => not_whitespace_of_visible (hvisible c (mem_of_getLast? hc)))
    (fun c hc => not_control_of_visible (hvisible c hc))
    ((utf8ByteSize_of_visible hvisible).trans_le hlen)

/-- What a valid identifier begins with stays valid when visible text that fits is appended. -/
theorem new_ok_append {label' : String} {maxLen' : ℕ} (id : TextId label' maxLen') {front : String}
    (hfront : front.toList <+: id.value.toList) {suffix : String} (hne : suffix.toList ≠ [])
    (hvisible : ∀ c ∈ suffix.toList, isVisible c = true)
    (hlen : front.utf8ByteSize + suffix.toList.length ≤ maxLen) :
    ∃ long : TextId label maxLen, new (front ++ suffix) = .ok long := by
  obtain ⟨hspace, hcontrol, -⟩ := id.plain
  have hsize := utf8ByteSize_of_visible hvisible
  apply new_ok
  · simp [hne]
  · intro c hc
    rw [toList_append, head?_append] at hc
    cases hchars : front.toList with
    | nil =>
      rw [hchars, head?_nil, Option.none_or] at hc
      exact not_whitespace_of_visible (hvisible c (mem_of_mem_head? hc))
    | cons first rest =>
      rw [hchars] at hc hfront
      obtain rfl : first = c := by simpa using hc
      obtain ⟨tail, htail⟩ := hfront
      exact hspace first (by rw [← htail]; rfl)
  · intro c hc
    rw [toList_append, getLast?_append_of_ne_nil _ hne] at hc
    exact not_whitespace_of_visible (hvisible c (mem_of_getLast? hc))
  · intro c hc
    rw [toList_append, mem_append] at hc
    obtain hc | hc := hc
    · exact hcontrol c (hfront.subset hc)
    · exact not_control_of_visible (hvisible c hc)
  · rw [utf8ByteSize_append, hsize]
    exact hlen

end TextId

abbrev CapabilityId := TextId "capability id" 256
abbrev ChangeId := TextId "change id" 256
abbrev Digest := TextId "digest" 256
abbrev OperationId := TextId "operation id" 256
abbrev ProviderId := TextId "provider id" 256
abbrev ProviderVersion := TextId "provider version" 256
abbrev TransactionId := TextId "transaction id" 256
abbrev ResourceKey := TextId "resource key" 4096

end ScxAgent
