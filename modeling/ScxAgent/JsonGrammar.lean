import ScxAgent.JsonText

/-!
# Complete JSON texts

The grammar of JSON, and the depth of brackets along a text. An object that is written without white
space around it has no proper beginning that is a complete text: its outermost bracket is open until
the last character.
-/

namespace JsonGrammar

open JsonText

/-! ## The grammar -/

inductive StringBody : List Char → Prop
  | nil : StringBody []
  | plain {c : Char} {cs : List Char} (hcontrol : 0x20 ≤ c.toNat) (hquote : c ≠ '"')
      (hslash : c ≠ '\\') (h : StringBody cs) : StringBody (c :: cs)
  | escaped {c : Char} {cs : List Char} (hc : c ∈ ['"', '\\', '/', 'b', 'f', 'n', 'r', 't'])
      (h : StringBody cs) : StringBody ('\\' :: c :: cs)
  | unicode {a b c d : Char} {cs : List Char} (hhex : ∀ x ∈ [a, b, c, d], (hexValue x).isSome)
      (h : StringBody cs) : StringBody ('\\' :: 'u' :: a :: b :: c :: d :: cs)

def Digits (cs : List Char) : Prop := cs ≠ [] ∧ ∀ c ∈ cs, c.isDigit = true

inductive Number : List Char → Prop
  | mk {sign int fraction exponent : List Char} (hsign : sign = [] ∨ sign = ['-']) (hint : Digits int)
      (hzero : int.head? = some '0' → int = ['0'])
      (hfraction : fraction = [] ∨ ∃ cs, Digits cs ∧ fraction = '.' :: cs)
      (hexponent : exponent = [] ∨ ∃ e ∈ ['e', 'E'], ∃ s ∈ [[], ['+'], ['-']], ∃ cs, Digits cs ∧
        exponent = e :: s ++ cs) :
      Number (sign ++ int ++ fraction ++ exponent)

/-- The parts of a text. The elements of an object are named, those of an array are not. -/
inductive Part where
  | value
  | element (named : Bool)
  | elements (named : Bool)

def opening (named : Bool) : Char := if named then '\x7b' else '['

def closing (named : Bool) : Char := if named then '\x7d' else ']'

inductive Derives : Part → List Char → Prop
  | word {cs : List Char}
      (h : cs ∈ [['n', 'u', 'l', 'l'], ['t', 'r', 'u', 'e'], ['f', 'a', 'l', 's', 'e']]) :
      Derives .value cs
  | number {cs : List Char} (h : Number cs) : Derives .value cs
  | string {cs : List Char} (h : StringBody cs) : Derives .value ('"' :: cs ++ ['"'])
  | blank (named : Bool) {space : List Char} (h : Spaces space) :
      Derives .value (opening named :: space ++ [closing named])
  | bracketed {named : Bool} {cs : List Char} (h : Derives (.elements named) cs) :
      Derives .value (opening named :: cs ++ [closing named])
  | item {space cs after : List Char} (hspace : Spaces space) (h : Derives .value cs)
      (hafter : Spaces after) : Derives (.element false) (space ++ cs ++ after)
  | member {space name after cs : List Char} (hspace : Spaces space) (hname : StringBody name)
      (hafter : Spaces after) (h : Derives (.element false) cs) :
      Derives (.element true) (space ++ ('"' :: name ++ ['"']) ++ after ++ ':' :: cs)
  | one {named : Bool} {cs : List Char} (h : Derives (.element named) cs) :
      Derives (.elements named) cs
  | more {named : Bool} {cs rest : List Char} (h : Derives (.element named) cs)
      (hrest : Derives (.elements named) rest) : Derives (.elements named) (cs ++ ',' :: rest)

/-- A value with white space around it. -/
def Complete (text : List Char) : Prop := Derives (.element false) text

/-! ## The depth of brackets -/

inductive Mode where
  | plain
  | quoted
  | escaped

structure Scan where
  mode : Mode
  depth : ℤ

def Scan.step (s : Scan) (c : Char) : Scan :=
  match s.mode with
  | .plain =>
    if c = '"' then { s with mode := .quoted }
    else if c = '[' ∨ c = '\x7b' then { s with depth := s.depth + 1 }
    else if c = ']' ∨ c = '\x7d' then { s with depth := s.depth - 1 }
    else s
  | .quoted =>
    if c = '"' then { s with mode := .plain }
    else if c = '\\' then { s with mode := .escaped }
    else s
  | .escaped => { s with mode := .quoted }

/-- The text takes one state to the other, and the depth never falls below `low`. -/
inductive Passes (low : ℤ) : Scan → List Char → Scan → Prop
  | nil {s : Scan} (h : low ≤ s.depth) : Passes low s [] s
  | cons {s t : Scan} {c : Char} {cs : List Char} (h : low ≤ s.depth)
      (hrest : Passes low (s.step c) cs t) : Passes low s (c :: cs) t

namespace Passes

variable {low : ℤ} {s t u : Scan} {cs ds : List Char}

section Passing

variable (h : Passes low s cs t)
include h

theorem append (h' : Passes low t ds u) : Passes low s (cs ++ ds) u := by
  induction h with
  | nil => exact h'
  | cons hlow _ ih => exact .cons hlow (ih h')

theorem mono {low' : ℤ} (hlow : low' ≤ low) : Passes low' s cs t := by
  induction h with
  | nil h => exact .nil (hlow.trans h)
  | cons h _ ih => exact .cons (hlow.trans h) ih

theorem unique : t = cs.foldl Scan.step s := by
  induction h with
  | nil => rfl
  | cons _ _ ih => exact ih

theorem low_le : low ≤ t.depth := by
  induction h with
  | nil h => exact h
  | cons _ _ ih => exact ih

theorem of_begins (hds : ds <+: cs) : ∃ u, Passes low s ds u := by
  induction h generalizing ds with
  | nil hlow =>
    rw [List.prefix_nil.mp hds]
    exact ⟨_, .nil hlow⟩
  | cons hlow _ ih =>
    cases ds with
    | nil => exact ⟨_, .nil hlow⟩
    | cons d ds =>
      obtain ⟨rfl, hrest⟩ := List.cons_prefix_cons.mp hds
      obtain ⟨u, hu⟩ := ih hrest
      exact ⟨u, .cons hlow hu⟩

end Passing

end Passes

/-- The text closes the brackets that it opens. -/
def Nested (cs : List Char) : Prop := ∀ d, Passes d ⟨.plain, d⟩ cs ⟨.plain, d⟩

theorem Nested.append {ds : List Char} (h : Nested cs) (h' : Nested ds) : Nested (cs ++ ds) :=
  fun d => (h d).append (h' d)

def Plain (c : Char) : Prop := c ∉ ['"', '[', ']', '\x7b', '\x7d']

variable {cs : List Char} {c : Char}

theorem nested_of_plain (h : ∀ c ∈ cs, Plain c) : Nested cs := by
  intro d
  induction cs with
  | nil => exact .nil le_rfl
  | cons c cs ih =>
    obtain ⟨hc, hcs⟩ := List.forall_mem_cons.mp h
    simp only [Plain, List.mem_cons, List.not_mem_nil, or_false, not_or] at hc
    refine .cons le_rfl ?_
    simpa [Scan.step, hc] using ih hcs

theorem plain_of_isSpace (h : isSpace c = true) : Plain c := by
  simp only [isSpace, Bool.or_eq_true, decide_eq_true_eq, or_assoc] at h
  rcases h with rfl | rfl | rfl | rfl <;> simp [Plain]

theorem plain_of_isDigit (h : c.isDigit = true) : Plain c := by
  intro hmem
  simp only [List.mem_cons, List.not_mem_nil, or_false] at hmem
  rcases hmem with rfl | rfl | rfl | rfl | rfl <;> revert h <;> decide

theorem Digits.plain (h : Digits cs) : ∀ c ∈ cs, Plain c :=
  fun c hc => plain_of_isDigit (h.2 c hc)

theorem Number.plain (h : Number cs) : ∀ c ∈ cs, Plain c := by
  obtain ⟨hsign, hint, -, hfraction, hexponent⟩ := h
  simp only [List.forall_mem_append]
  refine ⟨⟨⟨?_, hint.plain⟩, ?_⟩, ?_⟩
  · rcases hsign with rfl | rfl <;> simp [Plain]
  · rcases hfraction with rfl | ⟨cs, hcs, rfl⟩
    · exact nofun
    · exact List.forall_mem_cons.mpr ⟨by simp [Plain], hcs.plain⟩
  · rcases hexponent with rfl | ⟨e, he, s, hs, cs, hcs, rfl⟩
    · exact nofun
    · rw [List.cons_append, List.forall_mem_cons, List.forall_mem_append]
      refine ⟨?_, ?_, hcs.plain⟩
      · simp only [List.mem_cons, List.not_mem_nil, or_false] at he
        rcases he with rfl | rfl <;> simp [Plain]
      · simp only [List.mem_cons, List.not_mem_nil, or_false] at hs
        rcases hs with rfl | rfl | rfl <;> simp [Plain]

theorem StringBody.passes (h : StringBody cs) (d : ℤ) : Passes d ⟨.quoted, d⟩ cs ⟨.quoted, d⟩ := by
  have hplain : ∀ {c : Char} {cs : List Char}, c ≠ '"' → c ≠ '\\' →
      Passes d ⟨.quoted, d⟩ cs ⟨.quoted, d⟩ → Passes d ⟨.quoted, d⟩ (c :: cs) ⟨.quoted, d⟩ := by
    intro c cs hquote hslash hcs
    refine .cons le_rfl ?_
    simpa [Scan.step, hquote, hslash] using hcs
  induction h with
  | nil => exact .nil le_rfl
  | plain _ hquote hslash _ ih => exact hplain hquote hslash ih
  | escaped _ _ ih => exact .cons le_rfl (.cons le_rfl ih)
  | unicode hhex _ ih =>
    have hne : ∀ x ∈ _, x ≠ '"' ∧ x ≠ '\\' := fun x hx => by
      constructor <;> rintro rfl <;> exact absurd (hhex _ hx) (by decide)
    simp only [List.forall_mem_cons] at hne
    obtain ⟨ha, hb, hc, hd, -⟩ := hne
    exact .cons le_rfl (.cons le_rfl (hplain ha.1 ha.2 (hplain hb.1 hb.2 (hplain hc.1 hc.2
      (hplain hd.1 hd.2 ih)))))

theorem StringBody.nested (h : StringBody cs) : Nested ('"' :: cs ++ ['"']) :=
  fun d => .cons le_rfl ((h.passes d).append (.cons le_rfl (.nil le_rfl)))

theorem nested_bracketed (named : Bool) (h : Nested cs) :
    Nested (opening named :: cs ++ [closing named]) := by
  intro d
  have hopen : (⟨.plain, d⟩ : Scan).step (opening named) = ⟨.plain, d + 1⟩ := by
    cases named <;> rfl
  have hclose : (⟨.plain, d + 1⟩ : Scan).step (closing named) = ⟨.plain, d⟩ := by
    cases named <;> simp [Scan.step, closing]
  refine .cons le_rfl ?_
  rw [hopen]
  refine ((h (d + 1)).mono (by omega)).append (.cons (by simp) ?_)
  rw [hclose]
  exact .nil le_rfl

theorem Derives.nested {part : Part} (h : Derives part cs) : Nested cs := by
  have hspaces : ∀ {space : List Char}, Spaces space → Nested space := fun hspace =>
    nested_of_plain fun c hc => plain_of_isSpace (hspace c hc)
  have hsign : ∀ {c : Char} {cs : List Char}, Plain c → Nested cs → Nested (c :: cs) := fun hc hcs =>
    (nested_of_plain (List.forall_mem_singleton.mpr hc)).append hcs
  induction h with
  | word h =>
    simp only [List.mem_cons, List.not_mem_nil, or_false] at h
    rcases h with rfl | rfl | rfl <;> exact nested_of_plain (by simp [Plain])
  | number h => exact nested_of_plain h.plain
  | string h => exact h.nested
  | blank named h => exact nested_bracketed named (hspaces h)
  | bracketed _ ih => exact nested_bracketed _ ih
  | item hspace _ hafter ih => exact ((hspaces hspace).append ih).append (hspaces hafter)
  | member hspace hname hafter _ ih =>
    exact (((hspaces hspace).append hname.nested).append (hspaces hafter)).append
      (hsign (by simp [Plain]) ih)
  | one _ ih => exact ih
  | more _ _ ih ihrest => exact ih.append (hsign (by simp [Plain]) ihrest)

/-! ## Beginnings of an object -/

theorem Derives.ne_nil (h : Derives .value cs) : cs ≠ [] := by
  cases h with
  | word h => rintro rfl; simp at h
  | number h =>
    obtain ⟨_, hint, _, _, _⟩ := h
    simp [hint.1]
  | string | blank | bracketed => simp

theorem Derives.object (h : Derives .value ('\x7b' :: cs)) :
    ∃ body, cs = body ++ ['\x7d'] ∧ Nested body := by
  generalize htext : '\x7b' :: cs = text at h
  cases h with
  | word h => rw [← htext] at h; simp at h
  | number h =>
    rw [← htext] at h
    exact absurd (h.plain _ List.mem_cons_self) (by simp [Plain])
  | string => simp at htext
  | @blank named space h =>
    cases named with
    | false => simp [opening] at htext
    | true =>
      refine ⟨space, (List.cons.inj htext).2, nested_of_plain fun c hc => plain_of_isSpace (h c hc)⟩
  | @bracketed named body h =>
    cases named with
    | false => simp [opening] at htext
    | true => exact ⟨body, (List.cons.inj htext).2, h.nested⟩

theorem Complete.object {body : List Char} (h : Complete ('\x7b' :: body ++ ['\x7d'])) :
    Nested body := by
  generalize htext : '\x7b' :: body ++ ['\x7d'] = text at h
  cases h with
  | @item space value after hspace hvalue hafter =>
    -- White space can stand neither before the first bracket nor after the last one.
    have hstart : space = [] := by
      cases space with
      | nil => rfl
      | cons c space =>
        rw [← (List.cons.inj htext).1] at hspace
        exact absurd (hspace _ List.mem_cons_self) (by decide)
    have hend : after = [] := by
      rcases List.eq_nil_or_concat' after with rfl | ⟨after, c, rfl⟩
      · rfl
      · rw [← List.append_assoc] at htext
        rw [← (List.cons.inj (List.append_inj_right' htext rfl)).1] at hafter
        exact absurd (hafter '\x7d' (List.mem_append_right _ List.mem_cons_self)) (by decide)
    rw [hstart, hend, List.nil_append, List.append_nil] at htext
    rw [← htext] at hvalue
    obtain ⟨body', hbody, hnested⟩ := hvalue.object
    rw [(List.append_inj' hbody rfl).1]
    exact hnested

/-- A beginning of an object is no complete text, unless it is all of it. -/
theorem Complete.eq_of_begins {short body : List Char}
    (h : Complete ('\x7b' :: body ++ ['\x7d'])) (hshort : Complete short)
    (hbegins : short <+: '\x7b' :: body ++ ['\x7d']) : short = '\x7b' :: body ++ ['\x7d'] := by
  by_contra hne
  cases short with
  | nil =>
    generalize hnil : ([] : List Char) = text at hshort
    cases hshort with
    | item _ hvalue _ => simp [hvalue.ne_nil] at hnil
  | cons c rest =>
    obtain ⟨rfl, hrest⟩ := List.cons_prefix_cons.mp hbegins
    have hinside : rest <+: body := by
      rcases List.prefix_concat_iff.mp hrest with hall | hinside
      · exact absurd (congrArg _ hall) hne
      · exact hinside
    obtain ⟨u, hu⟩ := (h.object 1).of_begins hinside
    have hclosed := (hshort.nested 0).unique
    have hopen := hu.unique
    have hlow := hu.low_le
    rw [hopen] at hlow
    change _ = rest.foldl Scan.step ⟨.plain, 1⟩ at hclosed
    rw [← hclosed] at hlow
    exact absurd hlow (by decide)

/-! ## Written values -/

theorem StringBody.append {ds : List Char} (h : StringBody cs) (h' : StringBody ds) :
    StringBody (cs ++ ds) := by
  induction h with
  | nil => exact h'
  | plain hcontrol hquote hslash _ ih => exact .plain hcontrol hquote hslash ih
  | escaped hc _ ih => exact .escaped hc ih
  | unicode hhex _ ih => exact .unicode hhex ih

theorem stringBody_escape (c : Char) : StringBody (escape c) := by
  unfold escape
  split_ifs with hquote hslash
  iterate 7 exact .escaped (by simp) .nil
  · have hhex : ∀ d < 16, (hexValue (Nat.digitChar d)).isSome := fun d hd => by
      rw [hexValue_digitChar d hd]
      rfl
    refine .unicode ?_ .nil
    simp only [List.forall_mem_cons]
    exact ⟨by decide, by decide, hhex _ (by omega), hhex _ (by omega), nofun⟩
  · exact .plain (by omega) hquote hslash .nil

theorem derives_quote (s : String) : StringBody (s.toList.flatMap escape) := by
  induction s.toList with
  | nil => exact .nil
  | cons c cs ih => exact (stringBody_escape c).append ih

theorem derives_number (n : ℕ) : Derives .value (Nat.toDigits 10 n) := by
  obtain ⟨c, cs, hdigits, -, hzero⟩ := toDigits_eq_cons n
  have hnumber : Number ([] ++ Nat.toDigits 10 n ++ [] ++ []) := by
    refine .mk (.inl rfl) ⟨by simp [hdigits], fun c hc => ?_⟩ ?_ (.inl rfl) (.inl rfl)
    · exact Nat.isDigit_of_mem_toDigits (by decide) (by decide) hc
    · rw [hdigits]
      rintro ⟨⟩
      rw [(hzero rfl).2]
  exact .number (by simpa using hnumber)

theorem Derives.element (h : Derives .value cs) : Derives (.element false) cs := by
  simpa using Derives.item spaces_nil h spaces_nil

theorem Derives.named (name : String) (h : Derives .value cs) :
    Derives (.element true) (quote name ++ ':' :: cs) := by
  simpa [quote] using Derives.member spaces_nil (derives_quote name) spaces_nil h.element

mutual

theorem derives_render (level : ℕ) : ∀ json : Json, Derives .value (render compact level json)
  | .null => .word (by simp [render])
  | .bool true => .word (by simp [render])
  | .bool false => .word (by simp [render])
  | .num n => derives_number n
  | .str s => .string (derives_quote s)
  | .arr [] => .blank false spaces_nil
  | .arr (item :: items) => by
    simpa [render, compact, opening, closing] using
      Derives.bracketed (derives_renderItems (level + 1) items (derives_render (level + 1) item).element)
  | .obj [] => .blank true spaces_nil
  | .obj ((name, value) :: members) => by
    simpa [render, compact, opening, closing] using Derives.bracketed
      (derives_renderMembers (level + 1) members ((derives_render (level + 1) value).named name))

theorem derives_renderItems (level : ℕ) : ∀ (items : List Json) {cs : List Char},
    Derives (.element false) cs → Derives (.elements false) (cs ++ renderItems compact level items)
  | [], _, h => by simpa [renderItems] using Derives.one h
  | item :: items, _, h => by
    simpa [renderItems, compact] using
      Derives.more h (derives_renderItems level items (derives_render level item).element)

theorem derives_renderMembers (level : ℕ) : ∀ (members : List (String × Json)) {cs : List Char},
    Derives (.element true) cs → Derives (.elements true) (cs ++ renderMembers compact level members)
  | [], _, h => by simpa [renderMembers] using Derives.one h
  | (name, value) :: members, _, h => by
    simpa [renderMembers, compact] using Derives.more h
      (derives_renderMembers level members ((derives_render level value).named name))

end

end JsonGrammar
