import Mathlib.Data.List.Basic
import Mathlib.Tactic.Common
import Mathlib.Tactic.IntervalCases

/-!
# JSON text

The values of JSON whose numbers are natural, how they are written and how they are read back. The
writer has two layouts, the compact one and one with a line for each element; the reader takes any
white space. What is written, with white space behind it, is read back as it was.
-/

inductive Json where
  | null
  | bool (b : Bool)
  | num (n : ℕ)
  | str (s : String)
  | arr (items : List Json)
  | obj (members : List (String × Json))

namespace JsonText

open List Option

/-! ## Writing -/

/-- A character as it stands in a string. -/
def escape (c : Char) : List Char :=
  if c = '"' then ['\\', '"']
  else if c = '\\' then ['\\', '\\']
  else if c = '\x08' then ['\\', 'b']
  else if c = '\x0c' then ['\\', 'f']
  else if c = '\n' then ['\\', 'n']
  else if c = '\r' then ['\\', 'r']
  else if c = '\t' then ['\\', 't']
  else if c.toNat < 0x20 then ['\\', 'u', '0', '0', Nat.digitChar (c.toNat / 16),
      Nat.digitChar (c.toNat % 16)]
  else [c]

def quote (s : String) : List Char := '"' :: s.toList.flatMap escape ++ ['"']

/-- The white space before an element or a closing bracket, by the nesting level, and the text
between a name and its value. -/
structure Layout where
  newline : ℕ → List Char
  colon : List Char

def compact : Layout := ⟨fun _ => [], [':']⟩

def pretty : Layout := ⟨fun level => '\n' :: List.replicate (2 * level) ' ', [':', ' ']⟩

mutual

def render (layout : Layout) (level : ℕ) : Json → List Char
  | .null => ['n', 'u', 'l', 'l']
  | .bool true => ['t', 'r', 'u', 'e']
  | .bool false => ['f', 'a', 'l', 's', 'e']
  | .num n => Nat.toDigits 10 n
  | .str s => quote s
  | .arr [] => ['[', ']']
  | .arr (item :: items) =>
    '[' :: layout.newline (level + 1) ++ render layout (level + 1) item ++
      renderItems layout (level + 1) items ++ layout.newline level ++ [']']
  | .obj [] => ['\x7b', '\x7d']
  | .obj ((name, value) :: members) =>
    '\x7b' :: layout.newline (level + 1) ++ quote name ++ layout.colon ++
      render layout (level + 1) value ++ renderMembers layout (level + 1) members ++
      layout.newline level ++ ['\x7d']

def renderItems (layout : Layout) (level : ℕ) : List Json → List Char
  | [] => []
  | item :: items =>
    ',' :: layout.newline level ++ render layout level item ++ renderItems layout level items

def renderMembers (layout : Layout) (level : ℕ) : List (String × Json) → List Char
  | [] => []
  | (name, value) :: members =>
    ',' :: layout.newline level ++ quote name ++ layout.colon ++ render layout level value ++
      renderMembers layout level members

end

def write (layout : Layout) (json : Json) : String := String.ofList (render layout 0 json)

/-! ## Reading -/

def isSpace (c : Char) : Bool := c = ' ' || c = '\n' || c = '\t' || c = '\r'

def skipSpace (cs : List Char) : List Char := cs.dropWhile isSpace

def hexValue (c : Char) : Option ℕ :=
  if c.isDigit then some (c.toNat - '0'.toNat)
  else if 'a' ≤ c ∧ c ≤ 'f' then some (c.toNat - 'a'.toNat + 10)
  else if 'A' ≤ c ∧ c ≤ 'F' then some (c.toNat - 'A'.toNat + 10)
  else none

/-- Four hexadecimal digits. -/
def readUnit : List Char → Option (ℕ × List Char)
  | a :: b :: c :: d :: rest => do
    let a ← hexValue a
    let b ← hexValue b
    let c ← hexValue c
    let d ← hexValue d
    some (((a * 16 + b) * 16 + c) * 16 + d, rest)
  | _ => none

/-- What follows `\u`: a character of the basic plane, or the two halves of another one. -/
def readUnicode (cs : List Char) : Option (Char × List Char) := do
  let (unit, rest) ← readUnit cs
  if 0xD800 ≤ unit ∧ unit < 0xDC00 then
    match rest with
    | '\\' :: 'u' :: rest => do
      let (low, rest) ← readUnit rest
      if 0xDC00 ≤ low ∧ low < 0xE000 then
        some (Char.ofNat (0x10000 + (unit - 0xD800) * 0x400 + (low - 0xDC00)), rest)
      else none
    | _ => none
  else if 0xDC00 ≤ unit ∧ unit < 0xE000 then none
  else some (Char.ofNat unit, rest)

/-- What follows a backslash. -/
def unescape : List Char → Option (Char × List Char)
  | '"' :: rest => some ('"', rest)
  | '\\' :: rest => some ('\\', rest)
  | '/' :: rest => some ('/', rest)
  | 'b' :: rest => some ('\x08', rest)
  | 'f' :: rest => some ('\x0c', rest)
  | 'n' :: rest => some ('\n', rest)
  | 'r' :: rest => some ('\r', rest)
  | 't' :: rest => some ('\t', rest)
  | 'u' :: rest => readUnicode rest
  | _ => none

/-- The rest of a string behind its opening quote. -/
def readString : ℕ → List Char → Option (List Char × List Char)
  | 0, _ => none
  | _ + 1, [] => none
  | fuel + 1, c :: rest =>
    if c = '"' then some ([], rest)
    else if c = '\\' then do
      let (c, rest) ← unescape rest
      let (cs, rest) ← readString fuel rest
      some (c :: cs, rest)
    else if c.toNat < 0x20 then none
    else do
      let (cs, rest) ← readString fuel rest
      some (c :: cs, rest)

/-- A string with its opening quote. -/
def readQuoted (cs : List Char) : Option (String × List Char) :=
  match skipSpace cs with
  | '"' :: rest => (readString (rest.length + 1) rest).map fun (cs, rest) => (String.ofList cs, rest)
  | _ => none

/-- A number has no leading zero. -/
def readNumber (cs : List Char) : Option (ℕ × List Char) :=
  match cs with
  | '0' :: rest => some (0, rest)
  | _ =>
    let digits := cs.takeWhile Char.isDigit
    if digits = [] then none
    else some (Nat.ofDigitChars 10 digits 0, cs.dropWhile Char.isDigit)

/-- Takes a word off the front. -/
def readWord : List Char → List Char → Option (List Char)
  | [], cs => some cs
  | _ :: _, [] => none
  | expected :: word, c :: cs => if c = expected then readWord word cs else none

mutual

def readValue : ℕ → List Char → Option (Json × List Char)
  | 0, _ => none
  | fuel + 1, cs =>
    match skipSpace cs with
    | [] => none
    | c :: rest =>
      if c = 'n' then (readWord ['u', 'l', 'l'] rest).map fun rest => (.null, rest)
      else if c = 't' then (readWord ['r', 'u', 'e'] rest).map fun rest => (.bool true, rest)
      else if c = 'f' then (readWord ['a', 'l', 's', 'e'] rest).map fun rest => (.bool false, rest)
      else if c = '"' then (readQuoted (c :: rest)).map fun (s, rest) => (.str s, rest)
      else if c = '[' then
        if (skipSpace rest).head? = some ']' then some (.arr [], (skipSpace rest).tail)
        else (readItems fuel rest).map fun (items, rest) => (.arr items, rest)
      else if c = '\x7b' then
        if (skipSpace rest).head? = some '\x7d' then some (.obj [], (skipSpace rest).tail)
        else (readMembers fuel rest).map fun (members, rest) => (.obj members, rest)
      else (readNumber (c :: rest)).map fun (n, rest) => (.num n, rest)

/-- Elements up to the closing bracket. -/
def readItems : ℕ → List Char → Option (List Json × List Char)
  | 0, _ => none
  | fuel + 1, cs => do
    let (item, rest) ← readValue fuel cs
    match skipSpace rest with
    | [] => none
    | c :: rest =>
      if c = ']' then some ([item], rest)
      else if c = ',' then (readItems fuel rest).map fun (items, rest) => (item :: items, rest)
      else none

/-- Names with their values up to the closing brace. -/
def readMembers : ℕ → List Char → Option (List (String × Json) × List Char)
  | 0, _ => none
  | fuel + 1, cs => do
    let (name, rest) ← readQuoted cs
    let rest ← readWord [':'] (skipSpace rest)
    let (value, rest) ← readValue fuel rest
    match skipSpace rest with
    | [] => none
    | c :: rest =>
      if c = '\x7d' then some ([(name, value)], rest)
      else if c = ',' then
        (readMembers fuel rest).map fun (members, rest) => ((name, value) :: members, rest)
      else none

end

/-- A text holds one value and nothing else but white space. -/
def read (text : String) : Option Json := do
  let cs := text.toList
  let (json, rest) ← readValue (cs.length + 1) cs
  if skipSpace rest = [] then some json else none

/-! ## Strings are read back -/

theorem hexValue_digitChar : ∀ d < 16, hexValue (Nat.digitChar d) = some d := by decide

/-- A control character that has no short form. -/
theorem readUnicode_control {n : ℕ} (h : n < 0x20) (rest : List Char) :
    readUnicode ('0' :: '0' :: Nat.digitChar (n / 16) :: Nat.digitChar (n % 16) :: rest) =
      some (Char.ofNat n, rest) := by
  have hhigh := hexValue_digitChar (n / 16) (by omega)
  have hlow := hexValue_digitChar (n % 16) (by omega)
  have hzero : hexValue '0' = some 0 := by decide
  have hunit : readUnit ('0' :: '0' :: Nat.digitChar (n / 16) :: Nat.digitChar (n % 16) :: rest) =
      some (n, rest) := by
    simp only [readUnit, hzero, hhigh, hlow, Option.bind_eq_bind, Option.bind_some]
    rw [show ((0 * 16 + 0) * 16 + n / 16) * 16 + n % 16 = n by omega]
  simp only [readUnicode, hunit, Option.bind_eq_bind, Option.bind_some]
  rw [if_neg (by omega), if_neg (by omega)]

variable {cs rest : List Char} {c : Char}

theorem readString_backslash (fuel : ℕ) (h : unescape cs = some (c, rest)) :
    readString (fuel + 1) ('\\' :: cs) =
      (readString fuel rest).map fun (cs, rest) => (c :: cs, rest) := by
  rw [readString, if_neg (by decide), if_pos rfl, h]
  simp only [Option.bind_eq_bind, Option.bind_some]
  cases readString fuel rest <;> rfl

theorem readString_escape (c : Char) (fuel : ℕ) (rest : List Char) :
    readString (fuel + 1) (escape c ++ rest) =
      (readString fuel rest).map fun (cs, rest) => (c :: cs, rest) := by
  unfold escape
  split_ifs with hquote hback hb hf hn hr ht hcontrol
  · exact readString_backslash fuel (by rw [hquote]; rfl)
  · exact readString_backslash fuel (by rw [hback]; rfl)
  · exact readString_backslash fuel (by rw [hb]; rfl)
  · exact readString_backslash fuel (by rw [hf]; rfl)
  · exact readString_backslash fuel (by rw [hn]; rfl)
  · exact readString_backslash fuel (by rw [hr]; rfl)
  · exact readString_backslash fuel (by rw [ht]; rfl)
  · have hunicode := readUnicode_control hcontrol rest
    rw [Char.ofNat_toNat] at hunicode
    exact readString_backslash fuel hunicode
  · rw [List.singleton_append, readString, if_neg hquote, if_neg hback, if_neg hcontrol]
    cases readString fuel rest <;> rfl

theorem length_le_flatMap_escape (cs : List Char) : cs.length ≤ (cs.flatMap escape).length := by
  induction cs with
  | nil => exact Nat.zero_le _
  | cons c cs ih =>
    have hpos : 1 ≤ (escape c).length := by
      unfold escape
      split_ifs <;> simp
    rw [List.flatMap_cons, List.length_append, List.length_cons]
    omega

theorem readString_flatMap (rest : List Char) :
    ∀ (cs : List Char) (fuel : ℕ), cs.length < fuel →
      readString fuel (cs.flatMap escape ++ '"' :: rest) = some (cs, rest)
  | [], fuel + 1, _ => by rw [flatMap_nil, nil_append, readString, if_pos rfl]
  | c :: cs, fuel + 1, h => by
    rw [flatMap_cons, append_assoc, readString_escape,
      readString_flatMap rest cs fuel (Nat.lt_of_succ_lt_succ h)]
    rfl

def Spaces (cs : List Char) : Prop := ∀ c ∈ cs, isSpace c = true

theorem spaces_nil : Spaces [] := nofun

variable {space : List Char} {fuel : ℕ} {item : Json} {more : List Char}

theorem skipSpace_append (h : Spaces space) (cs : List Char) :
    skipSpace (space ++ cs) = skipSpace cs :=
  dropWhile_append_of_pos h

theorem skipSpace_cons (h : isSpace c = false) (cs : List Char) : skipSpace (c :: cs) = c :: cs :=
  dropWhile_cons_of_neg (by rw [h]; exact Bool.false_ne_true)

theorem readQuoted_quote (h : Spaces space) (s : String) (rest : List Char) :
    readQuoted (space ++ quote s ++ rest) = some (s, rest) := by
  have hskip : skipSpace (space ++ quote s ++ rest) =
      '"' :: (s.toList.flatMap escape ++ '"' :: rest) := by
    rw [append_assoc, skipSpace_append h, quote, cons_append, cons_append,
      skipSpace_cons (by decide), append_assoc, singleton_append]
  have hread := readString_flatMap rest s.toList
    ((s.toList.flatMap escape ++ '"' :: rest).length + 1) (by
      have := length_le_flatMap_escape s.toList
      rw [List.length_append]
      omega)
  simp only [readQuoted, hskip, hread, Option.map_some, String.ofList_toList]

/-! ## Values are read back -/

/-- What can follow a number. -/
def NoDigit (cs : List Char) : Prop := ∀ c ∈ cs.head?, c.isDigit = false

theorem digitChar_eq_zero : ∀ d < 10, Nat.digitChar d = '0' → d = 0 := by decide

/-- The decimal digits of a number start with a zero only if that is all of them. -/
theorem toDigits_eq_cons (n : ℕ) :
    ∃ c cs, Nat.toDigits 10 n = c :: cs ∧ c.isDigit = true ∧ (c = '0' → n = 0 ∧ cs = []) := by
  induction n using Nat.strongRecOn with
  | ind n ih =>
    by_cases hlt : n < 10
    · refine ⟨Nat.digitChar n, [], Nat.toDigits_of_lt_base hlt, ?_, fun hzero => ⟨?_, rfl⟩⟩
      · rw [Nat.isDigit_digitChar]
        exact decide_eq_true hlt
      · exact digitChar_eq_zero n hlt hzero
    · obtain ⟨c, cs, hdigits, hdigit, hzero⟩ := ih (n / 10) (by omega)
      refine ⟨c, cs ++ [Nat.digitChar (n % 10)], ?_, hdigit, fun hc => ?_⟩
      · rw [Nat.toDigits_of_base_le (by decide) (by omega), hdigits, List.cons_append]
      · have := (hzero hc).1
        omega

theorem takeWhile_of_noDigit (h : NoDigit rest) :
    rest.takeWhile Char.isDigit = [] ∧ rest.dropWhile Char.isDigit = rest := by
  cases rest with
  | nil => exact ⟨rfl, rfl⟩
  | cons c rest =>
    have hc : ¬ c.isDigit = true := by
      rw [h c rfl]
      exact Bool.false_ne_true
    exact ⟨List.takeWhile_cons_of_neg hc, List.dropWhile_cons_of_neg hc⟩

theorem readNumber_toDigits (n : ℕ) (h : NoDigit rest) :
    readNumber (Nat.toDigits 10 n ++ rest) = some (n, rest) := by
  have hall : ∀ c ∈ Nat.toDigits 10 n, c.isDigit = true := fun c hc =>
    Nat.isDigit_of_mem_toDigits (by decide) (by decide) hc
  have htake : (Nat.toDigits 10 n ++ rest).takeWhile Char.isDigit = Nat.toDigits 10 n := by
    rw [List.takeWhile_append_of_pos hall, (takeWhile_of_noDigit h).1, List.append_nil]
  have hdrop : (Nat.toDigits 10 n ++ rest).dropWhile Char.isDigit = rest := by
    rw [List.dropWhile_append_of_pos hall, (takeWhile_of_noDigit h).2]
  obtain ⟨c, cs, hdigits, -, hzero⟩ := toDigits_eq_cons n
  unfold readNumber
  split
  · rename_i tail hcs
    rw [hdigits, List.cons_append, List.cons.injEq] at hcs
    obtain ⟨rfl, rfl⟩ := hzero hcs.1
    rw [← hcs.2, List.nil_append]
  · dsimp only
    rw [htake, hdrop, if_neg Nat.toDigits_ne_nil, Nat.ofDigitChars_ten_toDigits]

theorem readValue_number {tail : List Char} (fuel : ℕ) (hdigit : c.isDigit = true)
    (hskip : skipSpace cs = c :: tail) :
    readValue (fuel + 1) cs = (readNumber (c :: tail)).map fun (n, rest) => (.num n, rest) := by
  have hne : ∀ d : Char, d.isDigit = false → c ≠ d := by
    rintro d hd rfl
    rw [hdigit] at hd
    cases hd
  simp only [readValue, hskip]
  rw [if_neg (hne 'n' rfl), if_neg (hne 't' rfl), if_neg (hne 'f' rfl), if_neg (hne '"' rfl),
    if_neg (hne '[' rfl), if_neg (hne '\x7b' rfl)]

theorem isSpace_of_isDigit (h : c.isDigit = true) : isSpace c = false := by
  unfold isSpace
  simp only [Bool.or_eq_false_iff, decide_eq_false_iff_not]
  refine ⟨⟨⟨?_, ?_⟩, ?_⟩, ?_⟩ <;> (rintro rfl; exact absurd h (by decide))

/-- The first character of a value is no white space and does not close anything. -/
theorem render_eq_cons (layout : Layout) (level : ℕ) (json : Json) :
    ∃ c cs, render layout level json = c :: cs ∧ isSpace c = false ∧ c ≠ ']' := by
  match json with
  | .null | .bool true | .bool false | .arr [] | .obj [] =>
    exact ⟨_, _, by rw [render], by decide, by decide⟩
  | .arr (_ :: _) => exact ⟨'[', _, by simp only [render, cons_append]; rfl, by decide, by decide⟩
  | .obj (_ :: _) =>
    exact ⟨'\x7b', _, by simp only [render, cons_append]; rfl, by decide, by decide⟩
  | .str s => exact ⟨_, _, by rw [render, quote, cons_append], by decide, by decide⟩
  | .num n =>
    obtain ⟨c, cs, hdigits, hdigit, -⟩ := toDigits_eq_cons n
    refine ⟨c, cs, by rw [render, hdigits], isSpace_of_isDigit hdigit, ?_⟩
    rintro rfl
    exact absurd hdigit (by decide)

/-- A layout adds nothing but white space. -/
structure Layout.Spaced (layout : Layout) : Prop where
  newline : ∀ level, Spaces (layout.newline level)
  colon : ∃ space, layout.colon = ':' :: space ∧ Spaces space

theorem compact_spaced : compact.Spaced := ⟨fun _ => nofun, [], rfl, nofun⟩

theorem pretty_spaced : pretty.Spaced := by
  refine ⟨fun level c hc => ?_, [' '], rfl, ?_⟩
  · rcases mem_cons.mp hc with rfl | hc
    · rfl
    · rw [eq_of_mem_replicate hc]
      rfl
  · rintro c (_ | ⟨_, ⟨⟩⟩)
    rfl

theorem noDigit_cons (cs : List Char) (h : c.isDigit = false) : NoDigit (c :: cs) := by
  rintro _ ⟨⟩
  exact h

theorem noDigit_append (h : Spaces space) (hcs : NoDigit cs) : NoDigit (space ++ cs) := by
  cases space with
  | nil => exact hcs
  | cons c space =>
    refine noDigit_cons _ ?_
    by_contra hdigit
    have hspace := h c mem_cons_self
    rw [isSpace_of_isDigit (Bool.not_eq_false _ ▸ hdigit)] at hspace
    cases hspace

theorem readValue_skip (h : Spaces space) (fuel : ℕ) (cs : List Char) :
    readValue fuel (space ++ cs) = readValue fuel cs := by
  cases fuel with
  | zero => rfl
  | succ fuel => rw [readValue, readValue, skipSpace_append h]

theorem readWord_append (word cs : List Char) : readWord word (word ++ cs) = some cs := by
  induction word with
  | nil => rfl
  | cons c word ih => rw [cons_append, readWord, if_pos rfl, ih]

theorem readValue_bracket (fuel : ℕ) (h : (skipSpace cs).head? ≠ some ']') :
    readValue (fuel + 1) ('[' :: cs) =
      (readItems fuel cs).map fun (items, rest) => (.arr items, rest) := by
  rw [readValue, skipSpace_cons (by decide)]
  exact if_neg h

theorem readValue_brace (fuel : ℕ) (h : (skipSpace cs).head? ≠ some '\x7d') :
    readValue (fuel + 1) ('\x7b' :: cs) =
      (readMembers fuel cs).map fun (members, rest) => (.obj members, rest) := by
  rw [readValue, skipSpace_cons (by decide)]
  exact if_neg h

theorem readItems_last {close : List Char} (hclose : Spaces close)
    (hvalue : readValue fuel cs = some (item, close ++ ']' :: rest)) :
    readItems (fuel + 1) cs = some ([item], rest) := by
  simp only [readItems, hvalue, bind_eq_bind, bind_some]
  rw [skipSpace_append hclose, skipSpace_cons (by decide)]
  rfl

theorem readItems_more {items : List Json} (hvalue : readValue fuel cs = some (item, ',' :: more))
    (hmore : readItems fuel more = some (items, rest)) :
    readItems (fuel + 1) cs = some (item :: items, rest) := by
  simp only [readItems, hvalue, bind_eq_bind, bind_some]
  rw [skipSpace_cons (by decide)]
  dsimp only
  rw [if_neg (by decide), if_pos rfl, hmore]
  rfl

section Members

variable {layout : Layout} {fuel : ℕ} {space cs close rest : List Char} {name : String}
  {value : Json}

theorem readMembers_last (h : layout.Spaced) (hspace : Spaces space) (hclose : Spaces close)
    (hvalue : readValue fuel cs = some (value, close ++ '\x7d' :: rest)) :
    readMembers (fuel + 1) (space ++ quote name ++ (layout.colon ++ cs)) =
      some ([(name, value)], rest) := by
  obtain ⟨gap, hcolon, hgap⟩ := h.colon
  have hread : readValue fuel (gap ++ cs) = some (value, close ++ '\x7d' :: rest) := by
    rw [readValue_skip hgap, hvalue]
  have hword : readWord [':'] (skipSpace (layout.colon ++ cs)) = some (gap ++ cs) := by
    rw [hcolon, cons_append, skipSpace_cons (by decide)]
    exact readWord_append [':'] _
  simp only [readMembers, readQuoted_quote hspace, hword, hread, bind_eq_bind,
    bind_some]
  rw [skipSpace_append hclose, skipSpace_cons (by decide)]
  rfl

theorem readMembers_more {members : List (String × Json)} (h : layout.Spaced)
    (hspace : Spaces space) (hvalue : readValue fuel cs = some (value, ',' :: more))
    (hmore : readMembers fuel more = some (members, rest)) :
    readMembers (fuel + 1) (space ++ quote name ++ (layout.colon ++ cs)) =
      some ((name, value) :: members, rest) := by
  obtain ⟨gap, hcolon, hgap⟩ := h.colon
  have hread : readValue fuel (gap ++ cs) = some (value, ',' :: more) := by
    rw [readValue_skip hgap, hvalue]
  have hword : readWord [':'] (skipSpace (layout.colon ++ cs)) = some (gap ++ cs) := by
    rw [hcolon, cons_append, skipSpace_cons (by decide)]
    exact readWord_append [':'] _
  simp only [readMembers, readQuoted_quote hspace, hword, hread, bind_eq_bind,
    bind_some]
  rw [skipSpace_cons (by decide)]
  dsimp only
  rw [if_neg (by decide), if_pos rfl, hmore]
  rfl

end Members

theorem head_skipSpace_ne (hspace : Spaces space) {d : Char} (hc : isSpace c = false) (hne : c ≠ d)
    (cs : List Char) : (skipSpace (space ++ (c :: cs))).head? ≠ some d := by
  rw [skipSpace_append hspace, skipSpace_cons hc, head?_cons]
  exact fun h => hne (some.inj h)

/-- The values that hold no others. -/
theorem readValue_leaf (layout : Layout) (level fuel : ℕ) (hrest : NoDigit rest) {json : Json}
    (hleaf : ∀ item items, json ≠ .arr (item :: items))
    (hleaf' : ∀ member members, json ≠ .obj (member :: members)) :
    readValue (fuel + 1) (render layout level json ++ rest) = some (json, rest) := by
  match json with
  | .null | .bool true | .bool false | .arr [] | .obj [] =>
    rw [render]
    rfl
  | .num n =>
    obtain ⟨c, cs, hdigits, hdigit, -⟩ := toDigits_eq_cons n
    have hskip : skipSpace (c :: cs ++ rest) = c :: (cs ++ rest) :=
      skipSpace_cons (isSpace_of_isDigit hdigit) _
    have hread := readNumber_toDigits n hrest
    rw [hdigits] at hread
    rw [render, hdigits, readValue_number fuel hdigit hskip, ← cons_append, hread]
    rfl
  | .str s =>
    have hread := readQuoted_quote spaces_nil s rest
    rw [nil_append] at hread
    have hvalue : readValue (fuel + 1) (quote s ++ rest) =
        (readQuoted (quote s ++ rest)).map fun (s, rest) => (.str s, rest) := by
      rw [quote, cons_append, cons_append, readValue, skipSpace_cons (by decide)]
      rfl
    rw [render, hvalue, hread]
    rfl
  | .arr (item :: items) => exact absurd rfl (hleaf item items)
  | .obj (member :: members) => exact absurd rfl (hleaf' member members)

mutual

variable {layout : Layout}

theorem readValue_render (h : layout.Spaced) :
    ∀ (json : Json) (level fuel : ℕ) (rest : List Char), NoDigit rest →
      (render layout level json).length ≤ fuel →
        readValue (fuel + 1) (render layout level json ++ rest) = some (json, rest)
  | .arr (item :: items), level, fuel, rest, hrest, hfuel => by
    rw [render] at hfuel ⊢
    simp only [cons_append, append_assoc, length_cons, length_append,
      nil_append, length_nil] at hfuel ⊢
    obtain ⟨c, cs, hcons, hspace, hne⟩ := render_eq_cons layout (level + 1) item
    have hitems := readItems_render h item items (level + 1) fuel (layout.newline (level + 1))
      (layout.newline level) rest (h.newline _) (h.newline _) (by omega)
    rw [readValue_bracket, hitems]
    · rfl
    · rw [hcons]
      exact head_skipSpace_ne (h.newline (level + 1)) hspace hne _
  | .obj ((name, value) :: members), level, fuel, rest, hrest, hfuel => by
    rw [render] at hfuel ⊢
    simp only [cons_append, append_assoc, length_cons, length_append,
      nil_append, length_nil] at hfuel ⊢
    have hmembers := readMembers_render h value members name (level + 1) fuel
      (layout.newline (level + 1)) (layout.newline level) rest (h.newline _) (h.newline _) (by omega)
    rw [readValue_brace, hmembers]
    · rfl
    · rw [quote]
      exact head_skipSpace_ne (h.newline (level + 1)) (by decide) (by decide) _
  | .null, level, fuel, rest, hrest, _ => readValue_leaf layout level fuel hrest nofun nofun
  | .bool _, level, fuel, rest, hrest, _ => readValue_leaf layout level fuel hrest nofun nofun
  | .num _, level, fuel, rest, hrest, _ => readValue_leaf layout level fuel hrest nofun nofun
  | .str _, level, fuel, rest, hrest, _ => readValue_leaf layout level fuel hrest nofun nofun
  | .arr [], level, fuel, rest, hrest, _ => readValue_leaf layout level fuel hrest nofun nofun
  | .obj [], level, fuel, rest, hrest, _ => readValue_leaf layout level fuel hrest nofun nofun
termination_by json => sizeOf json

theorem readItems_render (h : layout.Spaced) :
    ∀ (item : Json) (items : List Json) (level fuel : ℕ) (space close rest : List Char),
      Spaces space → Spaces close →
      (render layout level item).length + (renderItems layout level items).length + 1 < fuel →
        readItems fuel (space ++ (render layout level item ++ (renderItems layout level items ++
          (close ++ ']' :: rest)))) = some (item :: items, rest)
  | item, [], level, fuel + 2, space, close, rest, hspace, hclose, hfuel => by
    have hafter : NoDigit (close ++ ']' :: rest) :=
      noDigit_append hclose (noDigit_cons _ (by decide))
    have hvalue := readValue_render h item level fuel _ hafter (by omega)
    rw [← readValue_skip hspace] at hvalue
    exact readItems_last hclose hvalue
  | item, next :: items, level, fuel + 2, space, close, rest, hspace, hclose, hfuel => by
    obtain ⟨c, cs, hcons, -⟩ := render_eq_cons layout level item
    have hpos : 0 < (render layout level item).length := by
      rw [hcons]
      exact Nat.succ_pos _
    have hlength : (renderItems layout level (next :: items)).length =
        (layout.newline level).length + (render layout level next).length +
          (renderItems layout level items).length + 1 := by
      simp only [renderItems, length_cons, length_append]
      omega
    have hvalue := readValue_render h item level fuel
      (renderItems layout level (next :: items) ++ (close ++ ']' :: rest))
      (noDigit_cons _ (by decide)) (by omega)
    have hmore := readItems_render h next items level (fuel + 1) (layout.newline level) close rest
      (h.newline level) hclose (by omega)
    rw [← readValue_skip hspace] at hvalue
    rw [renderItems] at hvalue ⊢
    simp only [cons_append, append_assoc] at hvalue ⊢
    exact readItems_more hvalue hmore
termination_by item items => sizeOf item + sizeOf items

theorem readMembers_render (h : layout.Spaced) :
    ∀ (value : Json) (members : List (String × Json)) (name : String) (level fuel : ℕ)
      (space close rest : List Char), Spaces space → Spaces close →
      (render layout level value).length + (renderMembers layout level members).length + 1 < fuel →
        readMembers fuel (space ++ (quote name ++ (layout.colon ++ (render layout level value ++
          (renderMembers layout level members ++ (close ++ '\x7d' :: rest)))))) =
            some ((name, value) :: members, rest)
  | value, [], name, level, fuel + 2, space, close, rest, hspace, hclose, hfuel => by
    have hafter : NoDigit (close ++ '\x7d' :: rest) :=
      noDigit_append hclose (noDigit_cons _ (by decide))
    have hvalue := readValue_render h value level fuel _ hafter (by omega)
    rw [← append_assoc space]
    exact readMembers_last h hspace hclose hvalue
  | value, (next, nextValue) :: members, name, level, fuel + 2, space, close, rest, hspace, hclose,
      hfuel => by
    have hlength : (renderMembers layout level ((next, nextValue) :: members)).length =
        (layout.newline level).length + (quote next).length + layout.colon.length +
          (render layout level nextValue).length + (renderMembers layout level members).length +
          1 := by
      simp only [renderMembers, length_cons, length_append]
      omega
    have hvalue := readValue_render h value level fuel
      (renderMembers layout level ((next, nextValue) :: members) ++ (close ++ '\x7d' :: rest))
      (noDigit_cons _ (by decide)) (by omega)
    have hquote : 1 < (quote next).length := by simp [quote]
    have hmore := readMembers_render h nextValue members next level (fuel + 1)
      (layout.newline level) close rest (h.newline level) hclose (by omega)
    rw [renderMembers] at hvalue ⊢
    simp only [cons_append, append_assoc] at hvalue ⊢
    rw [← append_assoc space]
    exact readMembers_more h hspace hvalue hmore
termination_by value members => sizeOf value + sizeOf members

end

/-- What is written is read back, also with white space behind it. -/
theorem read_write {layout : Layout} (h : layout.Spaced) (json : Json) {space : String}
    (hspace : Spaces space.toList) : read (write layout json ++ space) = some json := by
  have hrest : NoDigit space.toList := by
    have hend : NoDigit (space.toList ++ []) := noDigit_append hspace nofun
    rwa [append_nil] at hend
  have hread := readValue_render h json 0 (write layout json ++ space).toList.length space.toList
    hrest (by
      rw [String.toList_append, write, String.toList_ofList, length_append]
      omega)
  have hskip : skipSpace space.toList = [] := by
    have := skipSpace_append hspace []
    rwa [append_nil] at this
  rw [read, String.toList_append, write, String.toList_ofList] at *
  simp only [hread, bind_eq_bind, bind_some, hskip, if_true]

end JsonText
