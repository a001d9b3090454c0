import Mathlib.Data.List.Basic

/-!
# Text as bytes

The UTF-8 bytes of a text and how they are read back.
-/

namespace Utf8

open List

variable {text short : List Char} {bytes rest : List UInt8}

def encode (text : List Char) : List UInt8 := text.flatMap String.utf8EncodeChar

def decode (bytes : List UInt8) : Option (List Char) :=
  bytes.toByteArray.utf8Decode?.map Array.toList

@[simp] theorem decode_encode (text : List Char) : decode (encode text) = some text := by
  have h : (utf8Encode text).utf8Decode? = some text.toArray := utf8Decode?_utf8Encode
  rw [utf8Encode] at h
  rw [decode, encode, h]
  rfl

/-- A byte below 128 is a character of the text. -/
theorem exists_char_of_mem {byte : UInt8} (hbyte : byte.toNat < 128) (h : byte ∈ encode text) :
    ∃ c ∈ text, c.toNat = byte.toNat := by
  obtain ⟨c, hc, hmem⟩ := mem_flatMap.mp h
  refine ⟨c, hc, ?_⟩
  -- All bytes of a longer character are at least 128.
  have hhigh : ∀ n, 128 ≤ n → n < 256 → byte ≠ UInt8.ofNat n := by
    rintro n hlow hn rfl
    rw [UInt8.toNat_ofNat_of_lt' hn] at hbyte
    omega
  unfold String.utf8EncodeChar at hmem
  simp only at hmem
  split at hmem
  next hascii =>
    rw [mem_singleton.mp hmem, UInt8.toNat_ofNat_of_lt' (Nat.lt_of_le_of_lt hascii (by decide))]
    rfl
  · split_ifs at hmem <;> simp only [mem_cons, not_mem_nil, or_false] at hmem
    · rcases hmem with h | h <;> exact absurd h (hhigh _ (by omega) (by omega))
    · rcases hmem with h | h | h <;> exact absurd h (hhigh _ (by omega) (by omega))
    · rcases hmem with h | h | h | h <;> exact absurd h (hhigh _ (by omega) (by omega))

/-- Bytes that are read stand for the text alone. -/
theorem encode_of_decode (h : decode bytes = some text) : encode text = bytes := by
  obtain ⟨chars, hchars, rfl⟩ := Option.map_eq_some_iff.mp h
  have hsome : bytes.toByteArray.utf8Decode?.isSome := by rw [hchars]; rfl
  have hencode := ByteArray.utf8Encode_get_utf8Decode? (h := hsome)
  simp only [hchars, Option.get_some] at hencode
  have hbytes := congrArg (fun array => array.data.toList) hencode
  simpa [utf8Encode, encode] using hbytes

theorem prefix_of_encode (h : encode short ++ rest = encode text) : short <+: text := by
  apply isPrefix_of_utf8Encode_append_eq_utf8Encode rest.toByteArray
  rw [utf8Encode, utf8Encode, ← toByteArray_append]
  exact congrArg toByteArray h

end Utf8
