import Mathlib.Algebra.Order.BigOperators.Group.List
import ScxAgent.Episode.SkillSession
import ScxAgent.JsonText

/-!
# The skill catalog

`SkillCatalogView::build` of `skill/catalog.rs` lists the skills for the agent within a number of
characters: it cuts the descriptions first and leaves out implicit skills then, the last ones first.
-/

namespace ScxAgent.Episode

open Std JsonText List

def truncateChars (value : String) (limit : ℕ) : String :=
  if value.toList.length ≤ limit then value
  else if limit ≤ 3 then String.ofList (value.toList.take limit)
  else String.ofList (value.toList.take (limit - 3)) ++ "..."

/-- A skill, and whether it was asked for. -/
abbrev CatalogCandidate := SkillPackage × Bool

def catalogEntry (descriptionLimit : ℕ) (package : SkillPackage) : Json :=
  .obj [("description", .str (truncateChars package.description descriptionLimit)),
    ("name", .str package.name), ("path", .str package.logicalPath)]

def renderCatalog (candidates : List CatalogCandidate) (descriptionLimit : ℕ) : List Json :=
  candidates.map fun candidate => catalogEntry descriptionLimit candidate.1

/-- `serde_json::to_string` does not fail on these values. -/
def encodedChars (entries : List Json) : ℕ := (render compact 0 (.arr entries)).length

structure SkillCatalogView where
  entries : List Json
  truncated : Bool
  omitted : ℕ

namespace SkillCatalogView

variable (snapshot : SkillSnapshot) (explicit : TreeSet String) (maxChars : ℕ)

/-- The skills that were asked for. -/
def explicitSkills : List SkillPackage := explicit.toList.filterMap fun name => snapshot.packages[name]?

/-- The other skills that may be used, in the order of their names. -/
def implicitSkills : List SkillPackage :=
  (snapshot.packages.toList.map (·.2)).filter fun package =>
    package.allowImplicitInvocation && !explicit.contains package.name

def marked (asked offered : List SkillPackage) : List CatalogCandidate :=
  asked.map (·, true) ++ offered.map (·, false)

/-- The limit that the loop over the smaller limits ends with. -/
def descriptionLimit (candidates : List CatalogCandidate) : ℕ → List ℕ → ℕ
  | limit, [] => limit
  | limit, smaller :: rest =>
    if encodedChars (renderCatalog candidates limit) ≤ maxChars then limit
    else descriptionLimit candidates smaller rest

/-- `rposition` of a skill that was not asked for. -/
def lastImplicit (candidates : List CatalogCandidate) : Option ℕ :=
  (candidates.reverse.findIdx? fun candidate => !candidate.2).map (candidates.length - 1 - ·)

theorem lastImplicit_lt {candidates : List CatalogCandidate} {index : ℕ}
    (h : lastImplicit candidates = some index) : index < candidates.length := by
  obtain ⟨i, hi, rfl⟩ := Option.map_eq_some_iff.mp h
  have hlt := (findIdx?_eq_some_iff_findIdx_eq.mp hi).1
  rw [length_reverse] at hlt
  omega

def exceeds : String :=
  s!"explicit skill metadata exceeds the configured {maxChars} character catalog limit"

/-- The `while` loop that removes one candidate after the other. -/
def dropImplicit (limit : ℕ) (candidates : List CatalogCandidate) : Except String (List CatalogCandidate) :=
  if encodedChars (renderCatalog candidates limit) ≤ maxChars then .ok candidates
  else match hlast : lastImplicit candidates with
    | none => .error (exceeds maxChars)
    | some index =>
      have := lastImplicit_lt hlast
      dropImplicit limit (candidates.eraseIdx index)
termination_by candidates.length
decreasing_by
  rw [List.length_eraseIdx_of_lt this]
  omega

def viewOf (candidates kept : List CatalogCandidate) (limit : ℕ) : SkillCatalogView :=
  let omitted := candidates.length - kept.length
  ⟨renderCatalog kept limit, limit < 1024 || omitted > 0, omitted⟩

def build : Except String SkillCatalogView := do
  let candidates := marked (explicitSkills snapshot explicit) (implicitSkills snapshot explicit)
  let limit := descriptionLimit maxChars candidates 1024 [512, 256, 128, 64]
  return viewOf candidates (← dropImplicit maxChars limit candidates) limit

end SkillCatalogView

/-! ## Lengths -/

theorem encodedChars_cons (entry : Json) (entries : List Json) :
    encodedChars (entry :: entries) = 2 + (render compact 1 entry).length +
      (entries.map fun entry => (render compact 1 entry).length + 1).sum := by
  have hitems : (renderItems compact 1 entries).length =
      (entries.map fun entry => (render compact 1 entry).length + 1).sum := by
    induction entries with
    | nil => rfl
    | cons entry entries ih =>
      rw [renderItems, map_cons, sum_cons, ← ih]
      simp [compact]
      omega
  rw [encodedChars, render, ← hitems]
  simp [compact]
  omega

/-- Characters that are left out are missing in the encoding too. -/
theorem escaped_take (cs : List Char) (n : ℕ) :
    ((cs.take n).flatMap escape).length + (cs.length - n) ≤ (cs.flatMap escape).length := by
  have hdrop := length_le_flatMap_escape (cs.drop n)
  rw [length_drop] at hdrop
  have hsplit : cs.flatMap escape = (cs.take n).flatMap escape ++ (cs.drop n).flatMap escape := by
    rw [← flatMap_append, take_append_drop]
  rw [hsplit, length_append]
  omega

theorem escaped_truncateChars (value : String) {a b : ℕ} (ha : 3 < a) (hab : a ≤ b) :
    ((truncateChars value a).toList.flatMap escape).length ≤
      ((truncateChars value b).toList.flatMap escape).length := by
  have hlong : ∀ {limit}, 3 < limit → limit < value.toList.length →
      ((truncateChars value limit).toList.flatMap escape).length =
        ((value.toList.take (limit - 3)).flatMap escape).length + 3 := by
    intro limit hlimit hlength
    rw [truncateChars, if_neg (Nat.not_le.mpr hlength), if_neg (Nat.not_le.mpr hlimit),
      String.toList_append, String.toList_ofList, flatMap_append, length_append]
    rfl
  have hshort : ∀ {limit}, value.toList.length ≤ limit → truncateChars value limit = value :=
    fun hlength => if_pos hlength
  rcases Nat.lt_or_ge a value.toList.length with hcut | hwhole
  · rw [hlong ha hcut]
    rcases Nat.lt_or_ge b value.toList.length with hcut' | hwhole'
    · rw [hlong (by omega) hcut']
      have htake := escaped_take (value.toList.take (b - 3)) (a - 3)
      rw [take_take, min_eq_left (by omega)] at htake
      omega
    · rw [hshort hwhole']
      have htake := escaped_take value.toList (a - 3)
      omega
  · rw [hshort hwhole, hshort (hwhole.trans hab)]

theorem length_catalogEntry (package : SkillPackage) {a b : ℕ} (ha : 3 < a) (hab : a ≤ b) :
    (render compact 1 (catalogEntry a package)).length ≤
      (render compact 1 (catalogEntry b package)).length := by
  have hdescription := escaped_truncateChars package.description ha hab
  simp only [catalogEntry, render, renderMembers, quote, compact, length_append,
    length_cons, length_nil]
  omega

/-- Fewer skills with shorter descriptions never need more characters. -/
theorem encodedChars_mono (candidates more : List CatalogCandidate) {a b : ℕ} (ha : 3 < a) (hab : a ≤ b) :
    encodedChars (renderCatalog candidates a) ≤ encodedChars (renderCatalog (candidates ++ more) b) := by
  cases candidates with
  | nil =>
    cases more with
    | nil => exact le_rfl
    | cons first more =>
      change 2 ≤ encodedChars (_ :: _)
      rw [encodedChars_cons]
      omega
  | cons first rest =>
    simp only [renderCatalog, cons_append, map_cons, encodedChars_cons, map_append,
      sum_append, map_map]
    have hfirst := length_catalogEntry first.1 ha hab
    have hrest := sum_le_sum fun (candidate : CatalogCandidate) (_ : candidate ∈ rest) =>
      Nat.add_le_add_right (length_catalogEntry candidate.1 ha hab) 1
    simp only [Function.comp_def]
    omega

/-! ## What is kept -/

namespace SkillCatalogView

variable {maxChars limit : ℕ} {asked offered : List SkillPackage}

theorem lastImplicit_marked (package : SkillPackage) :
    lastImplicit (marked asked (offered ++ [package])) = some (asked.length + offered.length) ∧
      (marked asked (offered ++ [package])).eraseIdx (asked.length + offered.length) =
        marked asked offered := by
  have hmarked : marked asked (offered ++ [package]) = marked asked offered ++ [(package, false)] := by
    simp [marked]
  have hlength : (marked asked offered).length = asked.length + offered.length := by
    simp [marked]
  rw [hmarked, lastImplicit, ← hlength]
  constructor
  · simp [findIdx?_cons]
  · rw [eraseIdx_append_of_length_le le_rfl]
    simp

theorem lastImplicit_asked : lastImplicit (marked asked []) = none := by
  simp [lastImplicit, marked, findIdx?_eq_none_iff]

/-- Whether the first `n` of the offered skills fit. -/
def Fits (maxChars limit : ℕ) (asked offered : List SkillPackage) (n : ℕ) : Prop :=
  encodedChars (renderCatalog (marked asked (offered.take n)) limit) ≤ maxChars

theorem dropImplicit_marked (maxChars limit : ℕ) (asked offered : List SkillPackage) :
    (∃ n ≤ offered.length, Fits maxChars limit asked offered n ∧
      (∀ k ≤ offered.length, Fits maxChars limit asked offered k → k ≤ n) ∧
      dropImplicit maxChars limit (marked asked offered) = .ok (marked asked (offered.take n))) ∨
    (∀ k ≤ offered.length, ¬ Fits maxChars limit asked offered k) ∧
      dropImplicit maxChars limit (marked asked offered) = .error (exceeds maxChars) := by
  induction offered using reverseRecOn with
  | nil =>
    rw [dropImplicit]
    by_cases hfits : encodedChars (renderCatalog (marked asked []) limit) ≤ maxChars
    · exact .inl ⟨0, le_rfl, hfits, fun k hk _ => hk, if_pos hfits⟩
    · refine .inr ⟨fun k _ hk => hfits (by simpa [Fits] using hk), ?_⟩
      rw [if_neg hfits]
      split
      · rfl
      next hindex => rw [lastImplicit_asked] at hindex; cases hindex
  | append_singleton offered package ih =>
    have htake : ∀ k ≤ offered.length, (offered ++ [package]).take k = offered.take k :=
      fun k hk => take_append_of_le_length hk
    have hall : (offered ++ [package]).take (offered.length + 1) = offered ++ [package] :=
      take_of_length_le (by simp)
    rw [dropImplicit, length_append, length_singleton]
    by_cases hfits : encodedChars (renderCatalog (marked asked (offered ++ [package])) limit) ≤ maxChars
    · refine .inl ⟨offered.length + 1, le_rfl, ?_, fun k hk _ => hk, ?_⟩
      · rwa [Fits, hall]
      · rw [if_pos hfits, hall]
    · rw [if_neg hfits]
      have hlast : ¬ Fits maxChars limit asked (offered ++ [package]) (offered.length + 1) := by
        rwa [Fits, hall]
      have hsame : ∀ k ≤ offered.length, Fits maxChars limit asked (offered ++ [package]) k ↔
          Fits maxChars limit asked offered k := fun k hk => by rw [Fits, htake k hk, Fits]
      have hnext : (match h : lastImplicit (marked asked (offered ++ [package])) with
          | none => .error (exceeds maxChars)
          | some index => dropImplicit maxChars limit
              ((marked asked (offered ++ [package])).eraseIdx index)) =
          dropImplicit maxChars limit (marked asked offered) := by
        split
        next hindex => rw [(lastImplicit_marked package).1] at hindex; cases hindex
        next hindex =>
          rw [(lastImplicit_marked package).1] at hindex
          rw [← Option.some.inj hindex, (lastImplicit_marked package).2]
      rw [hnext]
      rcases ih with ⟨n, hn, hkept, hmost, hdrop⟩ | ⟨hnone, hdrop⟩
      · refine .inl ⟨n, by omega, (hsame n hn).mpr hkept, fun k hk hfit => ?_, ?_⟩
        · rcases Nat.lt_or_ge offered.length k with hlarge | hsmall
          · rw [Nat.le_antisymm hk hlarge] at hfit
            exact absurd hfit hlast
          · exact hmost k hsmall ((hsame k hsmall).mp hfit)
        · rw [hdrop, htake n hn]
      · refine .inr ⟨fun k hk hfit => ?_, hdrop⟩
        rcases Nat.lt_or_ge offered.length k with hlarge | hsmall
        · rw [Nat.le_antisymm hk hlarge] at hfit
          exact hlast hfit
        · exact hnone k hsmall ((hsame k hsmall).mp hfit)

/-- The limits on a description, the largest first. -/
def limits : List ℕ := [1024, 512, 256, 128, 64]

theorem descriptionLimit_spec (maxChars : ℕ) (candidates : List CatalogCandidate) {limit : ℕ}
    {rest : List ℕ} (hrest : (limit :: rest).Pairwise (· ≥ ·)) :
    let chosen := descriptionLimit maxChars candidates limit rest
    chosen ∈ limit :: rest ∧
      (∀ l ∈ limit :: rest, encodedChars (renderCatalog candidates l) ≤ maxChars → l ≤ chosen) ∧
      (encodedChars (renderCatalog candidates chosen) ≤ maxChars ∨
        (limit :: rest).getLast? = some chosen) := by
  induction rest generalizing limit with
  | nil => simp [descriptionLimit]
  | cons smaller rest ih =>
    obtain ⟨hfirst, hrest⟩ := pairwise_cons.mp hrest
    rw [descriptionLimit]
    by_cases hfits : encodedChars (renderCatalog candidates limit) ≤ maxChars
    · rw [if_pos hfits]
      refine ⟨mem_cons_self, fun l hl _ => ?_, .inl hfits⟩
      rcases mem_cons.mp hl with rfl | hl
      · exact le_rfl
      · exact hfirst l hl
    · rw [if_neg hfits]
      obtain ⟨hmem, hlargest, hlast⟩ := ih hrest
      refine ⟨mem_cons_of_mem _ hmem, fun l hl hfit => ?_, hlast⟩
      rcases mem_cons.mp hl with rfl | hl
      · exact absurd hfit hfits
      · exact hlargest l hl hfit

/-- The build fails only when the skills that were asked for do not fit by themselves. Otherwise the
catalog fits; it has the longest descriptions with which all skills fit and as many of the others as
fit with them. -/
theorem catalog_is_maximal (snapshot : SkillSnapshot) (explicit : TreeSet String) (maxChars : ℕ) :
    let asked := explicitSkills snapshot explicit
    let offered := implicitSkills snapshot explicit
    let Fits (limit n : ℕ) : Prop := Fits maxChars limit asked offered n
    match build snapshot explicit maxChars with
    | .error message => ¬ Fits 64 0 ∧ message = exceeds maxChars
    | .ok view => Fits 64 0 ∧ encodedChars view.entries ≤ maxChars ∧
      ∃ limit ∈ limits, ∃ n ≤ offered.length,
        (Fits limit offered.length ∨ limit = 64) ∧
        (∀ larger ∈ limits, Fits larger offered.length → larger ≤ limit) ∧
        (∀ k ≤ offered.length, Fits limit k → k ≤ n) ∧
        view.entries = renderCatalog (marked asked (offered.take n)) limit ∧
        view.omitted = offered.length - n ∧
        view.truncated = (decide (limit < 1024) || decide (view.omitted > 0)) := by
  intro asked offered Fits
  have hlimits : limits.Pairwise (· ≥ ·) := by decide
  obtain ⟨hchosen, hlargest, hlast⟩ := descriptionLimit_spec maxChars (marked asked offered) hlimits
  generalize hlimit : descriptionLimit maxChars (marked asked offered) 1024 [512, 256, 128, 64] =
    limit at hchosen hlargest hlast
  have hall : ∀ l, Fits l offered.length ↔
      encodedChars (renderCatalog (marked asked offered) l) ≤ maxChars := fun l => by
    change encodedChars (renderCatalog (marked asked (offered.take _)) l) ≤ _ ↔ _
    rw [take_length]
  have hsmall : 64 ≤ limit := by
    have hleast : ∀ l ∈ limits, 64 ≤ l := by decide
    exact hleast limit hchosen
  simp only [← hall] at hlargest hlast
  have hleft : Fits limit offered.length ∨ limit = 64 := hlast.imp_right fun h => by
    simpa using h.symm
  have hbuild : build snapshot explicit maxChars =
      (dropImplicit maxChars limit (marked asked offered) >>= fun kept =>
        .ok (viewOf (marked asked offered) kept limit)) := by
    rw [← hlimit]
    rfl
  rcases dropImplicit_marked maxChars limit asked offered with
    ⟨n, hn, hfits, hmost, hdrop⟩ | ⟨hnone, hdrop⟩ <;> rw [hbuild, hdrop]
  · have hexplicit : Fits 64 0 := by
      have hmono := encodedChars_mono (marked asked []) ((offered.take n).map (·, false))
        (by decide : 3 < 64) hsmall
      have hmarked : marked asked [] ++ (offered.take n).map (·, false) =
          marked asked (offered.take n) := by simp [marked]
      rw [hmarked] at hmono
      exact hmono.trans hfits
    refine ⟨hexplicit, hfits, limit, hchosen, n, hn, hleft, hlargest, hmost, rfl, ?_, rfl⟩
    simp only [viewOf, marked, length_append, length_map, length_take]
    omega
  · have hlimit64 := hleft.resolve_left (hnone _ le_rfl)
    exact ⟨hlimit64 ▸ hnone 0 (Nat.zero_le _), rfl⟩

end SkillCatalogView

end ScxAgent.Episode
