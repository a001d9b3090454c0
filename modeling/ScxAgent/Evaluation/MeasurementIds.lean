import ScxAgent.Evaluation.Protocol

/-!
# The identities of measurements

`side_context` and the `open` of the core-system provider cut a text at its end, byte by byte, until
a name fits into 256 bytes. Here the two loops are spelled out on byte positions. Neither cuts a
character, and the names of the two sides stay apart after both cuts.
-/

namespace ScxAgent.Evaluation

open List

open String (utf8Len)

/-- What stands before a byte position; `none` if the position is inside a character. -/
def sliceTo : List Char → ℕ → Option (List Char)
  | [], index => if index = 0 then some [] else none
  | c :: rest, index =>
    if index = 0 then some []
    else if c.utf8Size ≤ index then (sliceTo rest (index - c.utf8Size)).map (c :: ·)
    else none

def isCharBoundary (text : List Char) (index : ℕ) : Bool := (sliceTo text index).isSome

def previousCharBoundary (text : List Char) : ℕ → ℕ
  | 0 => 0
  | index + 1 =>
    if isCharBoundary text (index + 1) then index + 1 else previousCharBoundary text index

/-- A loop that cuts a text until it fits with `extra` bytes. Cutting a character would panic, and
a loop that does not end runs out of fuel. -/
def cutToFit (extra : ℕ) : ℕ → List Char → Option (List Char)
  | 0, _ => none
  | fuel + 1, text =>
    if utf8Len text + extra > 256 then
      (sliceTo text (previousCharBoundary text (utf8Len text - 1))).bind (cutToFit extra fuel)
    else some text

/-- The session that `open` of the core-system provider names. -/
def coreSessionId (operationId : OperationId) : Option (Except String MeasurementSessionId) :=
  let name := "core-".toList ++ operationId.value.toList
  (cutToFit 0 (name.length + 1) name).map fun name => TextId.new (String.ofList name)

theorem sliceTo_eq_some {text front : List Char} {index : ℕ} :
    sliceTo text index = some front ↔ front <+: text ∧ utf8Len front = index := by
  induction text generalizing front index with
  | nil => cases front <;> simp [sliceTo, eq_comm]
  | cons c rest ih =>
    have hpos := c.utf8Size_pos
    rw [sliceTo]
    cases front with
    | nil => split_ifs with hzero <;> simp [hzero, eq_comm]
    | cons d front =>
      have hpos' := d.utf8Size_pos
      rw [cons_prefix_cons, String.utf8Len_cons]
      split_ifs with hzero hle
      · simp
        omega
      · simp only [Option.map_eq_some_iff, ih, cons.injEq]
        constructor
        · rintro ⟨_, ⟨hstarts, hsize⟩, rfl, rfl⟩
          exact ⟨⟨rfl, hstarts⟩, by omega⟩
        · rintro ⟨⟨rfl, hstarts⟩, hsize⟩
          exact ⟨front, ⟨hstarts, by omega⟩, rfl, rfl⟩
      · simp only [false_iff]
        rintro ⟨⟨rfl, -⟩, hsize⟩
        omega

variable {text : List Char} {c : Char} {extra : ℕ}

theorem sliceTo_append (text : List Char) (c : Char) :
    sliceTo (text ++ [c]) (utf8Len text) = some text :=
  sliceTo_eq_some.mpr ⟨prefix_append .., rfl⟩

/-- The boundary before the last character. -/
theorem previousCharBoundary_append {index : ℕ} (hlow : utf8Len text ≤ index)
    (hhigh : index < utf8Len text + c.utf8Size) :
    previousCharBoundary (text ++ [c]) index = utf8Len text := by
  induction index with
  | zero => exact (Nat.le_zero.mp hlow).symm
  | succ index ih =>
    rw [previousCharBoundary]
    obtain heq | hlt := hlow.eq_or_lt
    · rw [if_pos, heq]
      rw [← heq, isCharBoundary, sliceTo_append]
      rfl
    · rw [if_neg, ih (by omega) (by omega)]
      intro hboundary
      obtain ⟨front, hfront⟩ := Option.isSome_iff_exists.mp hboundary
      obtain ⟨hstarts, hsize⟩ := sliceTo_eq_some.mp hfront
      obtain rfl | hstarts := prefix_concat_iff.mp hstarts
      · simp at hsize
        omega
      · have hle := String.utf8Len_le_of_prefix hstarts
        omega

theorem cutToFit_append (fuel : ℕ) (text : List Char) (c : Char) :
    cutToFit extra (fuel + 1) (text ++ [c]) =
      if utf8Len (text ++ [c]) + extra > 256 then cutToFit extra fuel text
      else some (text ++ [c]) := by
  have hpos := c.utf8Size_pos
  have hsize : utf8Len (text ++ [c]) = utf8Len text + c.utf8Size := by simp
  rw [cutToFit, hsize, previousCharBoundary_append (by omega) (by omega), sliceTo_append,
    Option.bind_some]

/-- The loop of `side_context` is the one that drops character after character. -/
theorem cutToFit_eq_fitBefore (text : List Char) {side : String} (hside : side.utf8ByteSize < 256) :
    cutToFit (side.utf8ByteSize + 1) (text.length + 1) text =
      some (fitBefore side text.reverse).reverse := by
  induction text using reverseRecOn with
  | nil =>
    rw [cutToFit, if_neg (by simp; omega)]
    rfl
  | append_singleton text c ih =>
    have hsize : (String.ofList (c :: text.reverse)).utf8ByteSize = utf8Len (text ++ [c]) := by
      simp [String.utf8ByteSize_ofList, add_comm]
    rw [length_append, length_singleton, cutToFit_append, reverse_append,
      reverse_singleton, singleton_append, fitBefore, hsize, ← add_assoc]
    split_ifs
    · exact ih
    · simp

/-- What the loop leaves is the longest beginning of the text that fits. -/
theorem cutToFit_spec (text : List Char) (hextra : extra ≤ 256) :
    ∃ kept, cutToFit extra (text.length + 1) text = some kept ∧ kept <+: text ∧
      utf8Len kept + extra ≤ 256 ∧
      ∀ front, front <+: text → utf8Len front + extra ≤ 256 → front <+: kept := by
  induction text using reverseRecOn with
  | nil => exact ⟨[], if_neg (by simpa using hextra), nil_prefix, by simpa using hextra,
      fun _ h _ => h⟩
  | append_singleton text c ih =>
    rw [length_append, length_singleton, cutToFit_append]
    split_ifs with hlong
    · obtain ⟨kept, hcut, hstarts, hfits, hlongest⟩ := ih
      refine ⟨kept, hcut, hstarts.trans (prefix_append ..), hfits, ?_⟩
      intro front hfront hfront'
      obtain rfl | hfront := prefix_concat_iff.mp hfront
      · omega
      · exact hlongest front hfront hfront'
    · exact ⟨_, rfl, prefix_rfl, not_lt.mp hlong, fun _ h _ => h⟩

/-! ## The two sides -/

/-- What a side keeps of an operation id, and the names that are derived from it. -/
structure SideNames (context : InvocationContext) (side : String) (initial : Char)
    (kept : List Char) (sided : InvocationContext) (session : MeasurementSessionId) : Prop where
  begins : kept <+: context.operationId.value.toList
  fits : utf8Len kept + side.utf8ByteSize + 1 ≤ 256
  longest : ∀ front, front <+: context.operationId.value.toList →
    utf8Len front + side.utf8ByteSize + 1 ≤ 256 → front <+: kept
  sideContext : sideContext context side = .ok sided
  operationId : sided.operationId.value.toList = kept ++ '-' :: side.toList
  coreSession : coreSessionId sided.operationId = some (.ok session)
  session : "core-".toList ++ kept ++ ['-', initial] <+: session.value.toList

theorem exists_sideNames (context : InvocationContext) (side : String) (initial : Char)
    {rest : List Char} (hside : side.toList = initial :: rest)
    (hvisible : ∀ c ∈ side.toList, isVisible c = true)
    (hlen : 6 ≤ side.toList.length ∧ side.toList.length < 256) :
    ∃ kept sided session, SideNames context side initial kept sided session := by
  obtain ⟨-, hcontrol, -⟩ := context.operationId.plain
  have hsize := utf8ByteSize_of_visible hvisible
  have hdash : ∀ c ∈ '-' :: side.toList, isVisible c = true :=
    forall_mem_cons.mpr ⟨by decide, hvisible⟩
  have hextra : side.utf8ByteSize + 1 ≤ 256 := by omega
  obtain ⟨kept, hkept, hbegins, hfits, hlongest⟩ :=
    cutToFit_spec context.operationId.value.toList hextra
  rw [cutToFit_eq_fitBefore _ (by omega), Option.some.injEq] at hkept
  have hidOk : ∃ operationId : OperationId,
      TextId.new (String.ofList kept ++ ("-" ++ side)) = .ok operationId := by
    apply TextId.new_ok_append context.operationId
    · rwa [String.toList_ofList]
    · simp
    · simpa using hdash
    · simp [String.utf8ByteSize_ofList]
      omega
  obtain ⟨operationId, hid⟩ := hidOk
  have hvalue : operationId.value.toList = kept ++ '-' :: side.toList := by
    rw [TextId.new_eq_ok.mp hid]
    simp
  obtain ⟨named, hnamed, hname, hnamedFits, hnamedLongest⟩ :=
    cutToFit_spec ("core-".toList ++ operationId.value.toList) (Nat.zero_le 256)
  have hsession : "core-".toList ++ kept ++ ['-', initial] <+: named := by
    apply hnamedLongest
    · rw [hvalue, hside, append_assoc, prefix_append_right_inj,
        prefix_append_right_inj]
      simp
    · have hinitial : initial.utf8Size = 1 := by
        have h := utf8ByteSize_of_visible (s := String.ofList [initial]) (by simp_all)
        simpa [String.utf8ByteSize_ofList] using h
      have hcore : utf8Len "core-".toList = 5 := by decide +kernel
      have hminus : '-'.utf8Size = 1 := by decide
      rw [String.utf8Len_append, String.utf8Len_append, hcore, String.utf8Len_cons,
        String.utf8Len_cons, String.utf8Len_nil, hinitial, hminus]
      omega
  obtain ⟨tail, rfl⟩ := hsession
  have hend : ['-', initial] ++ tail <+: '-' :: side.toList := by
    simpa [hvalue, prefix_append_right_inj] using hname
  have hvisible' : ∀ c ∈ ['-', initial] ++ tail, isVisible c = true := fun c hc =>
    hdash c (hend.subset hc)
  have hsessionOk : ∃ session : MeasurementSessionId, TextId.new
      (String.ofList ("core-".toList ++ kept ++ ['-', initial] ++ tail)) = .ok session := by
    apply TextId.new_ok <;> rw [String.toList_ofList]
    · simp
    · simp
      decide
    · intro c hc
      rw [append_assoc, getLast?_append_of_ne_nil _ (by simp)] at hc
      exact not_whitespace_of_visible (hvisible' c (mem_of_getLast? hc))
    · intro c hc
      rw [append_assoc, mem_append, mem_append] at hc
      obtain (hc | hc) | hc := hc
      · revert c
        simp
        decide
      · exact hcontrol c (hbegins.subset hc)
      · exact not_control_of_visible (hvisible' c hc)
    · rw [String.utf8ByteSize_ofList]
      exact hnamedFits
  obtain ⟨session, hok⟩ := hsessionOk
  refine ⟨kept, { context with operationId }, session, hbegins, hfits, hlongest, ?_, hvalue, ?_,
    ?_⟩
  · rw [sideContext, hkept, String.append_assoc, hid]
  · rw [coreSessionId, hnamed, Option.map_some, hok]
  · rw [TextId.new_eq_ok.mp hok]
    exact ⟨tail, String.toList_ofList.symm⟩

/-- The two sides of an evaluation measure under different names, which are accepted. -/
theorem measurement_identities_distinct (context : InvocationContext) :
    (∀ side ∈ ["baseline", "candidate"],
      cutToFit (side.utf8ByteSize + 1) (context.operationId.value.toList.length + 1)
          context.operationId.value.toList =
        some (fitBefore side context.operationId.value.toList.reverse).reverse) ∧
    ∃ baseline candidate, sideContext context "baseline" = .ok baseline ∧
      sideContext context "candidate" = .ok candidate ∧
      baseline.operationId ≠ candidate.operationId ∧
      baseline.operationId.value.utf8ByteSize ≤ 256 ∧
      candidate.operationId.value.utf8ByteSize ≤ 256 ∧
      ∃ baselineSession candidateSession,
        coreSessionId baseline.operationId = some (.ok baselineSession) ∧
        coreSessionId candidate.operationId = some (.ok candidateSession) ∧
        baselineSession.value.utf8ByteSize ≤ 256 ∧ candidateSession.value.utf8ByteSize ≤ 256 ∧
        baselineSession ≠ candidateSession := by
  obtain ⟨keptB, baseline, sessionB, hB⟩ :=
    exists_sideNames context "baseline" 'b' rfl (by simp; decide) (by simp)
  obtain ⟨keptC, candidate, sessionC, hC⟩ :=
    exists_sideNames context "candidate" 'c' rfl (by simp; decide) (by simp)
  have hfitsB : utf8Len keptB + 9 ≤ 256 := hB.fits
  have hfitsC : utf8Len keptC + 10 ≤ 256 := hC.fits
  refine ⟨?_, baseline, candidate, hB.sideContext, hC.sideContext, ?_, baseline.operationId.plain.2.2,
    candidate.operationId.plain.2.2, sessionB, sessionC, hB.coreSession, hC.coreSession,
    sessionB.plain.2.2, sessionC.plain.2.2, ?_⟩
  · intro side hside
    apply cutToFit_eq_fitBefore
    revert side
    decide
  · intro hsame
    -- the last nine characters of the two ids differ
    have htext := hB.operationId
    rw [hsame, hC.operationId, append_cons] at htext
    have hlast := (append_inj' htext (by decide +kernel)).2
    revert hlast
    decide +kernel
  · rintro rfl
    obtain ⟨tail, rfl⟩ : keptC <+: keptB :=
      hB.longest keptC hC.begins (show utf8Len keptC + 9 ≤ 256 by omega)
    have hcommon := prefix_or_prefix_of_prefix hB.session hC.session
    cases tail with
    | nil => simp at hcommon
    | cons x tail =>
      -- one character more would not have fitted before the longer side
      have hlong : 256 < utf8Len (keptC ++ [x]) + 10 := by
        by_contra hshort
        have hlonger : keptC ++ [x] <+: keptC :=
          hC.longest _ ((by simp : keptC ++ [x] <+: keptC ++ x :: tail).trans hB.begins)
            (not_lt.mp hshort)
        simpa using hlonger.length_le
      simp only [String.utf8Len_append, String.utf8Len_cons, String.utf8Len_nil] at hlong hfitsB
      obtain rfl : tail = [] := String.utf8Len_eq_zero.mp (by omega)
      simp at hcommon

end ScxAgent.Evaluation
