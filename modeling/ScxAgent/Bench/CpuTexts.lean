import Mathlib.Data.Finset.Sort
import Mathlib.Data.Nat.Bitwise
import ScxAgent.Bench.CpuList
import ScxAgent.JsonText

/-!
# Lists and masks of CPUs as texts

The ranges that `format_cpu_list` writes and the groups of 32 bits that `format_cpu_mask` writes
are read back to the CPUs they were written for.
-/

namespace ScxAgent.Bench

open PyText List Nat

/-! ## Ranges -/

variable {n : ℕ} {c : Char}

theorem isDigit_of_mem_toDigits (h : c ∈ toDigits 10 n) : c.isDigit :=
  Nat.isDigit_of_mem_toDigits (by decide) (by decide) h

/-- A digit is neither a separator nor white space. -/
theorem plain_of_hexValue {d : ℕ} (h : JsonText.hexValue c = some d) :
    c ≠ ',' ∧ isSpace c = false := by
  have hrange : 48 ≤ c.toNat ∧ c.toNat ≤ 102 := by
    unfold JsonText.hexValue at h
    split_ifs at h with hdigit hlower hupper
    · simp only [Char.isDigit, Bool.and_eq_true, decide_eq_true_eq] at hdigit
      change 48 ≤ c.toNat ∧ c.toNat ≤ 57 at hdigit
      omega
    · change 97 ≤ c.toNat ∧ c.toNat ≤ 102 at hlower
      omega
    · change 65 ≤ c.toNat ∧ c.toNat ≤ 70 at hupper
      omega
  constructor
  · rintro rfl
    simp at hrange
  · simp only [isSpace, Bool.or_eq_false_iff, Bool.and_eq_false_iff, decide_eq_false_iff_not,
      beq_eq_false_iff_ne]
    omega

theorem isSpace_of_isDigit (h : c.isDigit) : isSpace c = false :=
  (plain_of_hexValue (if_pos h)).2

theorem isDigits_toDigits (n : ℕ) : isDigits (toDigits 10 n) = true := by
  simp only [isDigits, Bool.and_eq_true, Bool.not_eq_true', isEmpty_eq_false_iff,
    all_eq_true]
  exact ⟨toDigits_ne_nil, fun c => isDigit_of_mem_toDigits⟩

theorem digitsValue_toDigits (n : ℕ) : digitsValue (toDigits 10 n) = n :=
  ofDigitChars_ten_toDigits

theorem not_mem_toDigits (h : c.isDigit = false) : c ∉ toDigits 10 n :=
  fun hmem => by simp [isDigit_of_mem_toDigits hmem] at h

theorem formatRange_toList (start last : ℕ) : (formatRange start last).toList =
    if start ≠ last then toDigits 10 start ++ '-' :: toDigits 10 last
    else toDigits 10 start := by
  unfold formatRange
  split_ifs
  · simp [show toString "-" = "-" from rfl]
  · simp

theorem formatRange_chars {start last : ℕ} (h : c ∈ (formatRange start last).toList) :
    c.isDigit ∨ c = '-' := by
  rw [formatRange_toList] at h
  split_ifs at h
  · obtain hfirst | hlast := mem_append.1 h
    · exact .inl (isDigit_of_mem_toDigits hfirst)
    · obtain rfl | hlast := mem_cons.1 hlast
      · exact .inr rfl
      · exact .inl (isDigit_of_mem_toDigits hlast)
  · exact .inl (isDigit_of_mem_toDigits h)

theorem strip_formatRange (start last : ℕ) :
    strip (formatRange start last).toList = (formatRange start last).toList := by
  apply strip_of_all
  intro c hc
  obtain hdigit | rfl := formatRange_chars hc
  · exact isSpace_of_isDigit hdigit
  · decide

theorem parseCpuPart_formatRange {start last : ℕ} (h : start ≤ last) :
    parseCpuPart (formatRange start last).toList = .ok (range' start (last + 1 - start)) := by
  rw [formatRange_toList]
  split_ifs with hne
  · rw [parseCpuPart, splitOnce_append (not_mem_toDigits (by decide))]
    simp [isDigits_toDigits, digitsValue_toDigits, h]
  · obtain rfl : start = last := not_not.1 hne
    rw [parseCpuPart, splitOnce_of_not_mem (not_mem_toDigits (by decide))]
    simp [isDigits_toDigits, digitsValue_toDigits]

/-- The range that is open while the list is read has the CPUs from `start` to `prev`. -/
theorem parseCpuParts_formatRanges (value : Text) {start prev : ℕ} (h : start ≤ prev)
    (rest : List ℕ) : parseCpuParts value ((formatRanges start prev rest).map String.toList) =
      .ok (range' start (prev + 1 - start) ++ rest) := by
  have hpart : ∀ {start prev}, start ≤ prev → ∀ parts : List Text,
      parseCpuParts value ((formatRange start prev).toList :: parts) =
        (parseCpuParts value parts).map (range' start (prev + 1 - start) ++ ·) := by
    intro start prev h parts
    have hne : (formatRange start prev).toList ≠ [] := by
      rw [formatRange_toList]
      split_ifs <;> simp [toDigits_ne_nil]
    rw [parseCpuParts, strip_formatRange, if_neg hne]
    simp only [parseCpuPart_formatRange h]
    cases parseCpuParts value parts <;> rfl
  induction rest generalizing start prev with
  | nil => simp [formatRanges, hpart h, parseCpuParts, Except.map]
  | cons cpu rest ih =>
    rw [formatRanges]
    split_ifs with hnext
    · have hgrow : cpu + 1 - start = (prev + 1 - start) + 1 := by omega
      have hcpu : start + (prev + 1 - start) = cpu := by omega
      rw [ih (by omega), hgrow, range'_1_concat, hcpu, append_assoc,
        singleton_append]
    · simp [hpart h, ih le_rfl, Except.map]

theorem formatRanges_parts {start prev : ℕ} {rest : List ℕ} {part : String}
    (h : part ∈ formatRanges start prev rest) : ∃ first last, part = formatRange first last := by
  induction rest generalizing start prev with
  | nil => exact ⟨start, prev, mem_singleton.1 h⟩
  | cons cpu rest ih =>
    rw [formatRanges] at h
    split_ifs at h
    · exact ih h
    · obtain rfl | h := mem_cons.1 h
      · exact ⟨start, prev, rfl⟩
      · exact ih h

theorem parseCpuList_formatCpuList {cpus : List ℕ} (hne : cpus ≠ []) (hnodup : cpus.Nodup) :
    parseCpuList (formatCpuList cpus).toList = .ok cpus := by
  obtain ⟨start, rest, rfl⟩ := exists_cons_of_ne_nil hne
  have hread := fun value => parseCpuParts_formatRanges value (le_refl start) rest
  have hparts : split ',' (formatCpuList (start :: rest)).toList =
      (formatRanges start start rest).map String.toList := by
    rw [formatCpuList, String.toList_intercalate]
    apply split_join
    · intro hnil
      simpa [hnil, parseCpuParts] using hread []
    · intro part hpart hcomma
      obtain ⟨text, htext, rfl⟩ := mem_map.1 hpart
      obtain ⟨first, last, rfl⟩ := formatRanges_parts htext
      simpa using formatRange_chars hcomma
  have hcpus : range' start (start + 1 - start) ++ rest = start :: rest := by simp
  rw [parseCpuList, hparts, hread, hcpus]
  change (if ¬ (start :: rest).Nodup then _ else _) = _
  rw [if_neg (not_not.2 hnodup)]
  rfl

/-! ## Masks -/

def cpuMask (cpus : List ℕ) : ℕ := cpus.foldl (fun mask cpu => mask ||| 1 <<< cpu) 0

/-- The groups of a mask, the lowest one first. -/
def maskChunks (mask : ℕ) : List Text :=
  if mask = 0 then []
  else (Nat.toDigits 16 (mask &&& 0xFFFFFFFF)).leftpad 8 '0' :: maskChunks (mask >>> 32)
termination_by mask
decreasing_by
  rw [Nat.shiftRight_eq_div_pow]
  omega

def formatCpuMask (cpus : List ℕ) : Text :=
  let mask := cpuMask cpus
  if mask = 0 then ['0']
  else
    let chunks := maskChunks mask
    let highest := (chunks.getLastD []).dropWhile (· = '0')
    join [','] (chunks.dropLast ++ [if highest = [] then ['0'] else highest]).reverse

/-- The digits of `int(.., 16)` behind those read as `value`. -/
def hexFrom (value : ℕ) (digits : Text) : Option ℕ :=
  digits.foldlM (fun value digit => (JsonText.hexValue digit).map (16 * value + ·)) value

def maskCpus (value cpu : ℕ) : List ℕ :=
  if value = 0 then []
  else (if value &&& 1 ≠ 0 then [cpu] else []) ++ maskCpus (value >>> 1) (cpu + 1)
termination_by value
decreasing_by
  rw [Nat.shiftRight_eq_div_pow]
  omega

def parseCpuMask (text : Text) : Finset ℕ :=
  let cleaned := (strip text).filter (· ≠ ',')
  if cleaned = [] then ∅
  else
    match hexFrom 0 cleaned with
    | none => ∅
    | some value => (maskCpus value 0).toFinset

theorem testBit_cpuMask (cpus : List ℕ) (cpu : ℕ) : (cpuMask cpus).testBit cpu ↔ cpu ∈ cpus := by
  have hfold : ∀ mask : ℕ, (cpus.foldl (fun mask cpu => mask ||| 1 <<< cpu) mask).testBit cpu ↔
      mask.testBit cpu ∨ cpu ∈ cpus := by
    induction cpus with
    | nil => simp
    | cons first rest ih =>
      intro mask
      rw [foldl_cons, ih, testBit_or, one_shiftLeft, testBit_two_pow,
        Bool.or_eq_true, decide_eq_true_eq, mem_cons, eq_comm (b := cpu), or_assoc]
  simpa [cpuMask] using hfold 0

theorem mem_maskCpus (value first cpu : ℕ) :
    cpu ∈ maskCpus value first ↔ first ≤ cpu ∧ value.testBit (cpu - first) := by
  induction value, first using maskCpus.induct with
  | case1 first => simp [maskCpus]
  | case2 value first hvalue ih =>
    have hbit : value &&& 1 ≠ 0 ↔ value.testBit 0 := by
      simp [testBit_zero, and_one_is_mod]
    have hhere : cpu ∈ (if value &&& 1 ≠ 0 then [first] else []) ↔
        cpu = first ∧ value.testBit 0 := by
      rw [← hbit]
      split_ifs with hset
      · rw [mem_singleton, and_iff_left hset]
      · simp only [not_mem_nil, hset, and_false]
    rw [maskCpus, if_neg hvalue, mem_append, hhere, ih, testBit_shiftRight]
    obtain hlt | rfl | hgt := lt_trichotomy cpu first
    · simp [hlt.ne, hlt.not_ge, show ¬ first + 1 ≤ cpu by omega]
    · simp
    · have hindex : 1 + (cpu - (first + 1)) = cpu - first := by omega
      simp [hindex, hgt.ne', hgt.le, show first + 1 ≤ cpu from hgt]

/-! ## Digits of a mask -/

theorem hexFrom_append (value : ℕ) (front back : Text) :
    hexFrom value (front ++ back) = (hexFrom value front).bind (hexFrom · back) :=
  foldlM_append

theorem hexFrom_toDigits (value n : ℕ) : hexFrom value (toDigits 16 n) =
    some (value * 16 ^ (toDigits 16 n).length + n) := by
  induction n using Nat.strongRecOn with
  | ind n ih =>
    rw [Nat.toDigits_eq_if (by decide)]
    split_ifs with hn
    · simp [hexFrom, JsonText.hexValue_digitChar n hn, mul_comm]
    · have hlast := JsonText.hexValue_digitChar (n % 16) (by omega)
      rw [hexFrom_append, ih (n / 16) (by omega), Option.bind_some, length_append,
        length_singleton, pow_succ, ← mul_assoc]
      simp only [hexFrom, foldlM_cons, foldlM_nil, hlast, Option.map_some,
        Option.bind_eq_bind, Option.bind_some, Option.pure_def, Option.some_inj]
      omega

theorem hexFrom_zeros (value count : ℕ) :
    hexFrom value (replicate count '0') = some (value * 16 ^ count) := by
  have hzero : JsonText.hexValue '0' = some 0 := by decide
  induction count generalizing value with
  | zero => simp [hexFrom]
  | succ count ih =>
    rw [replicate_succ, ← singleton_append, hexFrom_append]
    have hone : hexFrom value ['0'] = some (16 * value) := by simp [hexFrom, hzero]
    rw [hone, Option.bind_some, ih, pow_succ]
    congr 1
    rw [mul_comm 16, mul_assoc, mul_comm 16]

/-- A group takes 32 bits, whatever its leading zeros. -/
theorem hexFrom_chunk (value : ℕ) (h : n < 2 ^ 32) :
    hexFrom value ((toDigits 16 n).leftpad 8 '0') = some (value * 2 ^ 32 + n) := by
  have hlength : (toDigits 16 n).length ≤ 8 :=
    (length_toDigits_le_iff (by decide) (by decide)).2 (by simpa using h)
  rw [leftpad, hexFrom_append, hexFrom_zeros, Option.bind_some, hexFrom_toDigits, mul_assoc,
    ← pow_add, Nat.sub_add_cancel hlength]
  norm_num

theorem hexFrom_maskChunks (mask : ℕ) :
    hexFrom 0 (maskChunks mask).reverse.flatten = some mask := by
  induction mask using maskChunks.induct with
  | case1 => simp [maskChunks, hexFrom]
  | case2 mask hmask ih =>
    have hlow : mask &&& 0xFFFFFFFF = mask % 2 ^ 32 := and_two_pow_sub_one_eq_mod mask 32
    rw [maskChunks, if_neg hmask, reverse_cons, flatten_append, hexFrom_append, ih,
      Option.bind_some, flatten_singleton, hlow, hexFrom_chunk _ (mod_lt _ (by decide)),
      shiftRight_eq_div_pow, mul_comm, div_add_mod]

theorem hexFrom_dropWhile (digits : Text) :
    hexFrom 0 (digits.dropWhile (· = '0')) = hexFrom 0 digits := by
  induction digits with
  | nil => rfl
  | cons digit rest ih =>
    by_cases hzero : digit = '0'
    · subst hzero
      rw [dropWhile_cons_of_pos (by simp), ih, ← singleton_append, hexFrom_append]
      rfl
    · rw [dropWhile_cons_of_neg (by simpa using hzero)]

theorem hexFrom_chars {digits : Text} {value result : ℕ} (h : hexFrom value digits = some result) :
    ∀ c ∈ digits, c ≠ ',' ∧ isSpace c = false := by
  induction digits generalizing value with
  | nil => simp
  | cons digit rest ih =>
    rw [← singleton_append, hexFrom_append] at h
    obtain ⟨next, hdigit, hrest⟩ := Option.bind_eq_some_iff.1 h
    obtain ⟨d, hd⟩ : ∃ d, JsonText.hexValue digit = some d := by
      rw [← Option.isSome_iff_exists]
      by_contra hnone
      simp [hexFrom, Option.not_isSome_iff_eq_none.1 hnone] at hdigit
    intro c hc
    obtain rfl | hc := mem_cons.1 hc
    · exact plain_of_hexValue hd
    · exact ih hrest c hc

theorem parseCpuMask_join {parts : List Text} {value : ℕ}
    (h : hexFrom 0 parts.flatten = some value) :
    parseCpuMask (join [','] parts) = (maskCpus value 0).toFinset := by
  have hchars := hexFrom_chars h
  have hfilter : (join [','] parts).filter (· ≠ ',') = parts.flatten :=
    filter_join fun part hpart hcomma => (hchars _ (mem_flatten_of_mem hpart hcomma)).1 rfl
  have hstrip : strip (join [','] parts) = join [','] parts := by
    apply strip_of_all
    intro c hc
    by_cases hcomma : c = ','
    · rw [hcomma]
      decide
    · apply fun hmem => (hchars c hmem).2
      rw [← hfilter]
      exact mem_filter.2 ⟨hc, by simpa using hcomma⟩
  unfold parseCpuMask
  simp only [hstrip, hfilter, h]
  split_ifs with hnil
  · obtain rfl : 0 = value := by simpa [hnil, hexFrom] using h
    simp [maskCpus]
  · rfl

theorem parseCpuMask_formatCpuMask (cpus : List ℕ) :
    parseCpuMask (formatCpuMask cpus) = cpus.toFinset := by
  have hcpus : (maskCpus (cpuMask cpus) 0).toFinset = cpus.toFinset := by
    ext cpu
    simp [mem_maskCpus, testBit_cpuMask]
  rw [← hcpus]
  have hread := hexFrom_maskChunks (cpuMask cpus)
  unfold formatCpuMask
  obtain hnil | ⟨front, highest, hchunks⟩ := (maskChunks (cpuMask cpus)).eq_nil_or_concat
  · have hzero : cpuMask cpus = 0 := by simpa [hnil, hexFrom, eq_comm] using hread
    simp only [hzero, if_true]
    have hjoin : join [','] [['0']] = ['0'] := rfl
    rw [← hjoin]
    exact parseCpuMask_join rfl
  · have hmask : cpuMask cpus ≠ 0 := by
      intro hzero
      simp [hzero, maskChunks] at hchunks
    rw [concat_eq_append] at hchunks
    simp only [hmask, if_false, hchunks, dropLast_concat, getLastD_concat]
    apply parseCpuMask_join
    rw [hchunks] at hread
    rw [reverse_concat, flatten_cons, hexFrom_append] at hread ⊢
    split_ifs with hall
    · rw [← hexFrom_dropWhile, hall] at hread
      exact hread
    · rw [hexFrom_dropWhile, hread]

/-- Written and read back, a list of CPUs and a mask name the CPUs they were written for. -/
theorem cpu_texts_read_back (cpus : Finset ℕ) (h : cpus.Nonempty) :
    parseCpuList (formatCpuList cpus.sort).toList = .ok cpus.sort ∧
      parseCpuMask (formatCpuMask cpus.sort) = cpus := by
  have hne : cpus.sort ≠ [] := by
    obtain ⟨cpu, hcpu⟩ := h
    exact ne_nil_of_mem ((Finset.mem_sort _).2 hcpu)
  constructor
  · exact parseCpuList_formatCpuList hne (Finset.sort_nodup _ _)
  · rw [parseCpuMask_formatCpuMask, Finset.sort_toFinset]

theorem cpu_texts_read_back_gap : parseCpuList (formatCpuList ({0, 1, 40} : Finset ℕ).sort).toList =
      .ok ({0, 1, 40} : Finset ℕ).sort ∧
    parseCpuMask (formatCpuMask ({0, 1, 40} : Finset ℕ).sort) = {0, 1, 40} :=
  cpu_texts_read_back {0, 1, 40} ⟨0, by decide⟩

end ScxAgent.Bench
