import Mathlib.Data.List.DropRight

/-!
# Texts as Python reads them

Texts are lists of characters. Reading a file in text mode turns every line end into a line feed,
and `strip` removes the characters that Python calls white space.
-/

namespace PyText

open List

abbrev Text := List Char

/-- `str.isspace` of one character. -/
def isSpace (c : Char) : Bool :=
  let n := c.toNat
  (9 ≤ n && n ≤ 13) || (28 ≤ n && n ≤ 32) || n == 0x85 || n == 0xa0 || n == 0x1680 ||
    (0x2000 ≤ n && n ≤ 0x200a) || n == 0x2028 || n == 0x2029 || n == 0x202f || n == 0x205f ||
    n == 0x3000

def lstrip (text : Text) : Text := text.dropWhile isSpace

def rstrip (text : Text) : Text := text.rdropWhile isSpace

def strip (text : Text) : Text := rstrip (lstrip text)

/-- The line ends of a text; a line feed behind a carriage return belongs to it. -/
def newlinesFrom : Bool → Text → Text
  | _, [] => []
  | afterReturn, c :: rest =>
    if c = '\r' then '\n' :: newlinesFrom true rest
    else if c = '\n' ∧ afterReturn then newlinesFrom false rest
    else c :: newlinesFrom false rest

/-- What reading in text mode makes of the contents of a file. -/
def universalNewlines (text : Text) : Text := newlinesFrom false text

/-- The characters at which `str.splitlines` splits, the carriage return apart. -/
def isLineEnd (c : Char) : Bool :=
  let n := c.toNat
  (10 ≤ n && n ≤ 12) || (28 ≤ n && n ≤ 30) || n == 0x85 || n == 0x2028 || n == 0x2029

def splitlinesFrom : Text → Bool → Text → List Text
  | line, _, [] => if line = [] then [] else [line.reverse]
  | line, afterReturn, c :: rest =>
    if c = '\r' then line.reverse :: splitlinesFrom [] true rest
    else if c = '\n' ∧ afterReturn ∧ line = [] then splitlinesFrom [] false rest
    else if isLineEnd c then line.reverse :: splitlinesFrom [] false rest
    else splitlinesFrom (c :: line) false rest

def splitlines (text : Text) : List Text := splitlinesFrom [] false text

/-- `str.split` at one character. -/
def split (separator : Char) : Text → List Text
  | [] => [[]]
  | c :: rest =>
    if c = separator then [] :: split separator rest
    else
      match split separator rest with
      | [] => [[c]]
      | first :: others => (c :: first) :: others

/-- `str.split` at white space. -/
def words (text : Text) : List Text := (text.splitOnP isSpace).filter (· ≠ [])

/-- `str.split` with one cut; `none` if the character does not occur. -/
def splitOnce (separator : Char) : Text → Option (Text × Text)
  | [] => none
  | c :: rest =>
    if c = separator then some ([], rest)
    else (splitOnce separator rest).map fun (first, second) => (c :: first, second)

/-- A non-empty text of digits. -/
def isDigits (text : Text) : Bool := !text.isEmpty && text.all Char.isDigit

def digitsValue (digits : Text) : ℕ :=
  digits.foldl (fun value digit => 10 * value + (digit.toNat - '0'.toNat)) 0

def join (separator : Text) (parts : List Text) : Text := separator.intercalate parts

/-! ## Stripped texts -/

variable {text front : Text}

theorem lstrip_of_prefix (h : front <+: lstrip text) : lstrip front = front := by
  cases front with
  | nil => rfl
  | cons c rest =>
    have hhead : (lstrip text).head? = some c := by
      obtain ⟨tail, htail⟩ := h
      rw [← htail]
      rfl
    have hspace : isSpace c = false := by
      have hdrop := head?_dropWhile_not isSpace text
      unfold lstrip at hhead
      simpa [hhead] using hdrop
    exact dropWhile_cons_of_neg (by simp [hspace])

@[simp] theorem strip_strip (text : Text) : strip (strip text) = strip text := by
  have hfront : lstrip (strip text) = strip text := lstrip_of_prefix (List.rdropWhile_prefix _ _)
  have hback : rstrip (strip text) = strip text := rdropWhile_idempotent _ _
  rw [strip, hfront, hback]

variable {c : Char}

theorem mem_of_mem_strip (h : c ∈ strip text) : c ∈ text :=
  dropWhile_sublist _ |>.subset ((List.rdropWhile_prefix _ _).subset h)

theorem strip_of_all (h : ∀ c ∈ text, isSpace c = false) : strip text = text := by
  have hfront : lstrip text = text := by
    cases text with
    | nil => rfl
    | cons c rest => exact dropWhile_cons_of_neg (by simp [h c])
  rw [strip, hfront, rstrip, rdropWhile_eq_self_iff]
  intro hne
  simp [h _ (getLast_mem hne)]

/-! ## Parts of a text -/

variable {separator : Char} {parts : List Text} {line : Text}

theorem split_of_not_mem (h : separator ∉ text) : split separator text = [text] := by
  induction text with
  | nil => rfl
  | cons c rest ih =>
    obtain ⟨hc, hrest⟩ := ne_and_not_mem_of_not_mem_cons h
    rw [split, if_neg hc.symm, ih hrest]

theorem split_append (h : separator ∉ front) (back : Text) :
    split separator (front ++ separator :: back) = front :: split separator back := by
  induction front with
  | nil => simp [split]
  | cons c rest ih =>
    obtain ⟨hc, hrest⟩ := ne_and_not_mem_of_not_mem_cons h
    rw [cons_append, split, if_neg hc.symm, ih hrest]

theorem split_join (hne : parts ≠ []) (h : ∀ part ∈ parts, separator ∉ part) :
    split separator (join [separator] parts) = parts := by
  induction parts with
  | nil => exact absurd rfl hne
  | cons part rest ih =>
    have hpart := h part mem_cons_self
    cases rest with
    | nil => simp [join, split_of_not_mem hpart]
    | cons next others =>
      have hrest := ih (by simp) fun p hp => h p (mem_cons_of_mem _ hp)
      rw [join, intercalate_cons_cons, append_assoc, singleton_append,
        split_append hpart, ← join, hrest]

theorem filter_join (h : ∀ part ∈ parts, separator ∉ part) :
    (join [separator] parts).filter (· ≠ separator) = parts.flatten := by
  have hpart : ∀ part ∈ parts, part.filter (· ≠ separator) = part := by
    intro part hpart
    apply filter_eq_self.2
    intro c hc
    simpa using fun heq : c = separator => h part hpart (heq ▸ hc)
  induction parts with
  | nil => rfl
  | cons part rest ih =>
    have hrest := ih (fun p hp => h p (mem_cons_of_mem _ hp))
      fun p hp => hpart p (mem_cons_of_mem _ hp)
    have hfirst := hpart part mem_cons_self
    cases rest with
    | nil => simpa [join] using hfirst
    | cons next others =>
      rw [join, intercalate_cons_cons, filter_append, filter_append, hfirst, ← join,
        hrest]
      simp

theorem splitOnce_of_not_mem (h : separator ∉ text) : splitOnce separator text = none := by
  induction text with
  | nil => rfl
  | cons c rest ih =>
    obtain ⟨hc, hrest⟩ := ne_and_not_mem_of_not_mem_cons h
    rw [splitOnce, if_neg hc.symm, ih hrest, Option.map_none]

theorem splitOnce_append (h : separator ∉ front) (back : Text) :
    splitOnce separator (front ++ separator :: back) = some (front, back) := by
  induction front with
  | nil => simp [splitOnce]
  | cons c rest ih =>
    obtain ⟨hc, hrest⟩ := ne_and_not_mem_of_not_mem_cons h
    rw [cons_append, splitOnce, if_neg hc.symm, ih hrest, Option.map_some]

theorem words_join (h : ∀ part ∈ parts, part ≠ [] ∧ ∀ c ∈ part, isSpace c = false) :
    words (join [' '] parts) = parts := by
  induction parts with
  | nil => rfl
  | cons part rest ih =>
    obtain ⟨hne, hpart⟩ := h part mem_cons_self
    cases rest with
    | nil => simp [join, words, splitOnP_eq_singleton hpart, hne]
    | cons next others =>
      have hrest := ih fun p hp => h p (mem_cons_of_mem _ hp)
      rw [join, words] at hrest
      rw [join, words, intercalate_cons_cons, append_assoc, singleton_append,
        splitOnP_append_cons_of_forall_mem hpart _ rfl, filter_cons_of_pos (by simpa),
        hrest]

theorem mem_join (h : c ∈ join [separator] parts) : c = separator ∨ ∃ part ∈ parts, c ∈ part := by
  induction parts with
  | nil => cases h
  | cons part rest ih =>
    cases rest with
    | nil => exact .inr ⟨part, List.mem_cons_self, by simpa [join] using h⟩
    | cons next others =>
      rw [join, List.intercalate_cons_cons, List.append_assoc, List.mem_append, List.mem_append,
        List.mem_singleton] at h
      obtain hpart | hseparator | hrest := h
      · exact .inr ⟨part, List.mem_cons_self, hpart⟩
      · exact .inl hseparator
      · exact (ih hrest).imp_right fun ⟨p, hp, hc⟩ => ⟨p, List.mem_cons_of_mem _ hp, hc⟩

/-! ## Line ends -/

theorem splitlinesFrom_append (h : ∀ c ∈ front, c ≠ '\r' ∧ isLineEnd c = false) (line back : Text) :
    splitlinesFrom line false (front ++ back) =
      splitlinesFrom (front.reverse ++ line) false back := by
  induction front generalizing line with
  | nil => rfl
  | cons c rest ih =>
    obtain ⟨hreturn, hend⟩ := h c mem_cons_self
    rw [cons_append, splitlinesFrom, if_neg hreturn, if_neg (by simp),
      if_neg (by simp [hend]), ih fun d hd => h d (mem_cons_of_mem _ hd)]
    simp

/-- Lines end only at white space. -/
theorem within_line (h : isSpace c = false ∨ c = ' ') : c ≠ '\r' ∧ isLineEnd c = false := by
  obtain hspace | rfl := h
  · simp only [isSpace, isLineEnd, Bool.or_eq_false_iff, Bool.and_eq_false_iff,
      decide_eq_false_iff_not, beq_eq_false_iff_ne] at hspace ⊢
    refine ⟨?_, by omega⟩
    rintro rfl
    simp at hspace
  · decide

theorem splitlines_cons (h : ∀ c ∈ line, isSpace c = false ∨ c = ' ') (back : Text) :
    splitlines (line ++ '\n' :: back) = line :: splitlines back := by
  rw [splitlines, splitlinesFrom_append fun c hc => within_line (h c hc), splitlinesFrom]
  simp [isLineEnd, splitlines]

theorem splitlines_line (h : ∀ c ∈ line, isSpace c = false ∨ c = ' ') (hne : line ≠ []) :
    splitlines line = [line] := by
  have happend := splitlinesFrom_append (fun c hc => within_line (h c hc)) [] []
  rw [List.append_nil] at happend
  simpa [splitlines, happend, splitlinesFrom] using hne

theorem not_mem_newlinesFrom (afterReturn : Bool) (text : Text) :
    '\r' ∉ newlinesFrom afterReturn text := by
  induction text generalizing afterReturn with
  | nil => simp [newlinesFrom]
  | cons c rest ih =>
    unfold newlinesFrom
    split_ifs with hreturn hfeed
    · simp [ih]
    · exact ih false
    · simp [ih, Ne.symm hreturn]

theorem newlinesFrom_eq_self (h : '\r' ∉ text) : newlinesFrom false text = text := by
  induction text with
  | nil => rfl
  | cons c rest ih =>
    obtain ⟨hc, hrest⟩ := ne_and_not_mem_of_not_mem_cons h
    rw [newlinesFrom, if_neg (Ne.symm hc), if_neg (by simp), ih hrest]

theorem universalNewlines_eq_self (h : '\r' ∉ text) : universalNewlines text = text :=
  newlinesFrom_eq_self h

/-- A text that has been read and stripped is read and stripped to itself. -/
theorem strip_universalNewlines_strip (text : Text) :
    strip (universalNewlines (strip (universalNewlines text))) = strip (universalNewlines text) := by
  have hclean : '\r' ∉ strip (universalNewlines text) := fun hmem =>
    not_mem_newlinesFrom false text (mem_of_mem_strip hmem)
  rw [universalNewlines_eq_self hclean, strip_strip]

end PyText
