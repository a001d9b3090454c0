import ScxAgent.Episode.SkillSession
import ScxAgent.ExceptRules

/-!
# What a skill session discloses

The agent drives the session with commands of its own choice. `Executed` lists what one command can
do, and the invariant of the session is read off it.
-/

namespace ScxAgent.Episode.SkillSession

open Std Evaluation ExceptRules List

variable {V F : Type} [JsonValue V F] {session : SkillSession} {command : SkillCommand}
  {invocation : AgentToolInvocation V} {answer : SkillExecution V} {after : SkillSession}

/-! ## One command -/

/-- The ways in which a command ends. -/
inductive Executed (session : SkillSession) (invocation : AgentToolInvocation V) :
    SkillCommand → SkillExecution V → SkillSession → Prop
  | refused {command : SkillCommand} (event : String) (auditData : List (String × V))
      (error : String) :
      Executed session invocation command (failure invocation event auditData error) session
  | known {command : SkillCommand} {answer : SkillExecution V} (members : List (String × V))
      (hnames : members.map Prod.fst = ["skill", "already_loaded", "digest"] ∨
        members.map Prod.fst = ["skill", "path", "already_loaded", "digest"])
      (hanswer : answer.result = .success invocation (JsonValue.ofObject members)) :
      Executed session invocation command answer session
  | skill {name : String} {package : SkillPackage} {answer : SkillExecution V}
      (hpackage : session.snapshot.packages[name]? = some package)
      (hfresh : session.loaded.contains name = false)
      (hroom : session.loaded.size ≠ session.maxLoadedSkills)
      (hanswer : answer.result = .success invocation (skillPayload package false)) :
      Executed session invocation (.loadSkill name) answer
        { session with loaded := session.loaded.insert name }
  | reference {skill path : String} {package : SkillPackage} {document : ReferenceDocument}
      {answer : SkillExecution V} (hloaded : session.loaded.contains skill = true)
      (hpackage : session.snapshot.packages[skill]? = some package)
      (hdocument : package.references[path]? = some document)
      (hfresh : session.loadedReferences.contains (skill, path) = false)
      (hroom : session.loadedReferences.size ≠ session.maxReferenceReads)
      (hanswer : answer.result = .success invocation (JsonValue.ofObject
        [("skill", JsonValue.ofStr skill), ("path", JsonValue.ofStr path),
          ("already_loaded", JsonValue.ofBool false),
          ("digest", JsonValue.ofStr document.digest.value),
          ("byte_len", JsonValue.ofNat document.byteLen),
          ("content", JsonValue.ofStr document.content)])) :
      Executed session invocation (.loadReference skill path) answer
        { session with loadedReferences := session.loadedReferences.insert (skill, path) }

theorem executed (session : SkillSession) (command : SkillCommand)
    (invocation : AgentToolInvocation V) :
    Executed session invocation command (session.execute command invocation).1
      (session.execute command invocation).2 := by
  cases command with
  | loadSkill name =>
    simp only [execute, loadSkill]
    split
    · exact .refused _ _ _
    next package hpackage =>
      by_cases hloaded : session.loaded.contains name = true
      · rw [if_pos hloaded]
        exact .known _ (.inl rfl) rfl
      · rw [if_neg hloaded]
        split
        · exact .refused _ _ _
        · split
          · exact .refused _ _ _
          next hroom => exact .skill hpackage (Bool.not_eq_true _ ▸ hloaded) hroom rfl
  | loadReference skill path =>
    simp only [execute, loadReference]
    by_cases hloaded : session.loaded.contains skill = true
    · rw [if_neg (by rw [hloaded]; decide)]
      split
      · exact .refused _ _ _
      next package hpackage =>
        split
        · exact .refused _ _ _
        next document hdocument =>
          by_cases hknown : session.loadedReferences.contains (skill, path) = true
          · rw [if_pos hknown]
            exact .known _ (.inr rfl) rfl
          · rw [if_neg hknown]
            split
            · exact .refused _ _ _
            next hroom =>
              exact .reference hloaded hpackage hdocument (Bool.not_eq_true _ ▸ hknown) hroom rfl
    · rw [if_pos (by rw [Bool.not_eq_true] at hloaded; rw [hloaded]; rfl)]
      exact .refused _ _ _

/-- A loaded skill and a loaded reference stay loaded. -/
structure Grows (session after : SkillSession) : Prop where
  loaded : ∀ name, session.loaded.contains name = true → after.loaded.contains name = true
  references : ∀ key, session.loadedReferences.contains key = true →
    after.loadedReferences.contains key = true

theorem Grows.refl (session : SkillSession) : Grows session session := ⟨fun _ => id, fun _ => id⟩

theorem Grows.trans {last : SkillSession} (h : Grows session after) (h' : Grows after last) :
    Grows session last :=
  ⟨fun name hname => h'.loaded name (h.loaded name hname),
    fun key hkey => h'.references key (h.references key hkey)⟩

theorem Executed.grows (h : Executed session invocation command answer after) :
    Grows session after := by
  cases h with
  | refused | known => exact .refl session
  | skill =>
    exact ⟨fun name hname => by rw [TreeSet.contains_insert, hname, Bool.or_true], fun _ => id⟩
  | reference =>
    exact ⟨fun _ => id, fun key hkey => by rw [TreeSet.contains_insert, hkey, Bool.or_true]⟩

/-! ## What an answer carries -/

variable (V) in
/-- `serde_json` finds the members of an object whose names differ. -/
def ReadsObjects : Prop :=
  ∀ (members : List (String × V)) (key : String), (members.map Prod.fst).Nodup →
    jsonGet (JsonValue.ofObject members : V) key = members.lookup key

def carried (answer : SkillExecution V) (key : String) : Option V :=
  jsonGet answer.result.content key

/-- A refusal and a repeated answer carry neither instructions nor a reference. -/
theorem carried_eq_none (hobjects : ReadsObjects V) {members : List (String × V)} {key : String}
    (hresult : answer.result.content = JsonValue.ofObject members)
    (hnames : members.map Prod.fst ∈ [["error"], ["skill", "already_loaded", "digest"],
      ["skill", "path", "already_loaded", "digest"]])
    (hkey : key = "instructions" ∨ key = "content") : carried answer key = none := by
  have hfacts : ∀ names ∈ [["error"], ["skill", "already_loaded", "digest"],
      ["skill", "path", "already_loaded", "digest"]], names.Nodup ∧ "instructions" ∉ names ∧
        "content" ∉ names := by decide
  obtain ⟨hnodup, hinstructions, hcontent⟩ := hfacts _ hnames
  rw [carried, hresult, hobjects members key hnodup, lookup_eq_none_iff]
  intro entry hentry
  have hmem := mem_map_of_mem (f := Prod.fst) hentry
  rw [bne_iff_ne]
  rintro rfl
  rcases hkey with hkey | hkey <;> rw [hkey] at hmem
  · exact hinstructions hmem
  · exact hcontent hmem

section Executions

variable (h : Executed session invocation command answer after)
include h

theorem Executed.instructions (hobjects : ReadsObjects V)
    (hcarried : (carried answer "instructions").isSome) :
    ∃ name package, command = .loadSkill name ∧
      session.snapshot.packages[name]? = some package ∧
      carried answer "instructions" = some (JsonValue.ofStr package.instructions) ∧
      session.loaded.contains name = false ∧ after.loaded.contains name = true := by
  cases h with
  | refused =>
    rw [carried_eq_none hobjects rfl (by simp) (.inl rfl)] at hcarried
    cases hcarried
  | known members hnames hanswer =>
    rw [carried_eq_none hobjects (by rw [hanswer]; rfl) (hnames.elim (by simp +contextual) (by simp +contextual)) (.inl rfl)] at hcarried
    cases hcarried
  | @skill name package _ hpackage hfresh hroom hanswer =>
    refine ⟨name, package, rfl, hpackage, ?_, hfresh, TreeSet.contains_insert_self⟩
    rw [carried, hanswer, AgentToolResult.success, skillPayload, hobjects _ _ (by simp)]
    rfl
  | reference hloaded hpackage hdocument hfresh hroom hanswer =>
    rw [carried, hanswer, AgentToolResult.success, hobjects _ _ (by simp)] at hcarried
    cases hcarried

theorem Executed.content (hobjects : ReadsObjects V) (hcarried : (carried answer "content").isSome) :
    ∃ skill path package document, command = .loadReference skill path ∧
      session.loaded.contains skill = true ∧
      session.snapshot.packages[skill]? = some package ∧
      package.references[path]? = some document ∧
      carried answer "content" = some (JsonValue.ofStr document.content) ∧
      session.loadedReferences.contains (skill, path) = false ∧
      after.loadedReferences.contains (skill, path) = true := by
  cases h with
  | refused =>
    rw [carried_eq_none hobjects rfl (by simp) (.inr rfl)] at hcarried
    cases hcarried
  | known members hnames hanswer =>
    rw [carried_eq_none hobjects (by rw [hanswer]; rfl) (hnames.elim (by simp +contextual) (by simp +contextual)) (.inr rfl)] at hcarried
    cases hcarried
  | skill hpackage hfresh hroom hanswer =>
    rw [carried, hanswer, AgentToolResult.success, skillPayload, hobjects _ _ (by simp)] at hcarried
    cases hcarried
  | @reference skill path package document _ hloaded hpackage hdocument hfresh hroom hanswer =>
    refine ⟨skill, path, package, document, rfl, hloaded, hpackage, hdocument, ?_, hfresh,
      TreeSet.contains_insert_self⟩
    rw [carried, hanswer, AgentToolResult.success, hobjects _ _ (by simp)]
    rfl

theorem Executed.unchanged (hok : answer.result.ok = false) : after = session := by
  cases h with
  | refused | known => rfl
  | skill _ _ _ hanswer | reference _ _ _ _ _ hanswer =>
    rw [hanswer] at hok
    cases hok

end Executions

/-! ## A whole session -/

/-- What the session may hold. -/
structure Within (snapshot : SkillSnapshot) (config : SkillConfig) (requested : List String)
    (session : SkillSession) : Prop where
  snapshot : session.snapshot = snapshot
  maxLoadedSkills : session.maxLoadedSkills = config.maxLoadedSkills
  maxReferenceReads : session.maxReferenceReads = config.maxReferenceReads
  loaded : session.loaded.size ≤ config.maxLoadedSkills
  references : session.loadedReferences.size ≤ config.maxReferenceReads
  requested : ∀ name ∈ requested, session.loaded.contains name = true

variable {snapshot : SkillSnapshot} {config : SkillConfig} {requested : List String}

theorem request_contains {explicit result : TreeSet String}
    (h : requested.foldlM (request snapshot) explicit = .ok result) :
    (∀ name, explicit.contains name = true → result.contains name = true) ∧
      ∀ name ∈ requested, result.contains name = true := by
  induction requested generalizing explicit with
  | nil =>
    cases h
    exact ⟨fun _ => id, nofun⟩
  | cons first rest ih =>
    rw [foldlM_cons] at h
    obtain ⟨next, hnext, h⟩ := bind_eq_ok.mp h
    unfold request at hnext
    obtain ⟨-, hnext⟩ := of_refusal_eq_ok hnext
    obtain ⟨-, hnext⟩ := of_refusal_eq_ok hnext
    cases hnext
    obtain ⟨hkept, hrest⟩ := ih h
    refine ⟨fun name hname => hkept name ?_, forall_mem_cons.mpr ⟨hkept first ?_, hrest⟩⟩
    · rw [TreeSet.contains_insert, hname, Bool.or_true]
    · exact TreeSet.contains_insert_self

theorem within_new (h : new snapshot config requested = .ok session) :
    Within snapshot config requested session := by
  unfold new at h
  obtain ⟨explicit, hexplicit, h⟩ := bind_eq_ok.mp h
  obtain ⟨hsize, h⟩ := of_guard_eq_ok h
  cases h
  exact ⟨rfl, rfl, rfl, Nat.le_of_not_lt hsize, Nat.zero_le _, (request_contains hexplicit).2⟩

section Bounds

variable (hwithin : Within snapshot config requested session)
include hwithin

theorem Within.executed (h : Executed session invocation command answer after) :
    Within snapshot config requested after := by
  have hrequested : ∀ name ∈ requested, after.loaded.contains name = true :=
    fun name hname => h.grows.loaded name (hwithin.requested name hname)
  cases h with
  | refused | known => exact hwithin
  | skill hpackage hfresh hroom =>
    refine ⟨hwithin.snapshot, hwithin.maxLoadedSkills, hwithin.maxReferenceReads, ?_,
      hwithin.references, hrequested⟩
    have hsize := hwithin.loaded
    rw [hwithin.maxLoadedSkills] at hroom
    exact TreeSet.size_insert_le.trans (by omega)
  | reference hloaded hpackage hdocument hfresh hroom =>
    refine ⟨hwithin.snapshot, hwithin.maxLoadedSkills, hwithin.maxReferenceReads, hwithin.loaded, ?_,
      hrequested⟩
    have hsize := hwithin.references
    rw [hwithin.maxReferenceReads] at hroom
    exact TreeSet.size_insert_le.trans (by omega)

variable (V) in
/-- A command with the session before and after it. -/
structure Turn where
  before : SkillSession
  command : SkillCommand
  answer : SkillExecution V
  after : SkillSession

def history (session : SkillSession) : List (SkillCommand × AgentToolInvocation V) → List (Turn V)
  | [] => []
  | (command, invocation) :: rest =>
    let (answer, after) := session.execute command invocation
    ⟨session, command, answer, after⟩ :: after.history rest

/-- Every turn is an executed command, and what it starts from has grown from the first session. -/
theorem history_turns {commands : List (SkillCommand × AgentToolInvocation V)} :
    ∀ turn ∈ session.history commands, Grows session turn.before ∧
      Within snapshot config requested turn.before ∧
      ∃ invocation, Executed turn.before invocation turn.command turn.answer turn.after := by
  induction commands generalizing session with
  | nil => exact nofun
  | cons first rest ih =>
    obtain ⟨command, invocation⟩ := first
    have hexecuted := executed session command invocation
    rw [history]
    refine forall_mem_cons.mpr ⟨⟨.refl session, hwithin, invocation, hexecuted⟩, ?_⟩
    intro turn hturn
    obtain ⟨hgrows, hlater⟩ := ih (hwithin.executed hexecuted) turn hturn
    exact ⟨hexecuted.grows.trans hgrows, hlater⟩

theorem pairwise_history (commands : List (SkillCommand × AgentToolInvocation V)) :
    (session.history commands).Pairwise fun earlier later => Grows earlier.after later.before := by
  induction commands generalizing session with
  | nil => exact Pairwise.nil
  | cons first rest ih =>
    obtain ⟨command, invocation⟩ := first
    have hafter := hwithin.executed (executed session command invocation)
    rw [history]
    exact pairwise_cons.mpr ⟨fun turn hturn => (history_turns hafter turn hturn).1, ih hafter⟩

end Bounds

/-- Whatever the agent asks for, the session stays within its limits and keeps the requested skills;
instructions and references are given out once, from the tables of the snapshot, and a refused
command changes nothing. -/
theorem skill_disclosure_is_bounded (hobjects : ReadsObjects V)
    (hnew : new snapshot config requested = .ok session)
    (commands : List (SkillCommand × AgentToolInvocation V)) :
    Within snapshot config requested session ∧
      (∀ turn ∈ session.history commands, Within snapshot config requested turn.after ∧
        (turn.answer.result.ok = false → turn.after = turn.before) ∧
        ((carried turn.answer "instructions").isSome → ∃ name package,
          turn.command = .loadSkill name ∧ snapshot.packages[name]? = some package ∧
          carried turn.answer "instructions" = some (JsonValue.ofStr package.instructions)) ∧
        ((carried turn.answer "content").isSome → ∃ skill path package document,
          turn.command = .loadReference skill path ∧ turn.before.loaded.contains skill = true ∧
          snapshot.packages[skill]? = some package ∧ package.references[path]? = some document ∧
          carried turn.answer "content" = some (JsonValue.ofStr document.content))) ∧
      (session.history commands).Pairwise fun earlier later =>
        ((carried earlier.answer "instructions").isSome →
          (carried later.answer "instructions").isSome → earlier.command ≠ later.command) ∧
        ((carried earlier.answer "content").isSome → (carried later.answer "content").isSome →
          earlier.command ≠ later.command) := by
  have hwithin := within_new hnew
  refine ⟨hwithin, fun turn hturn => ?_, ?_⟩
  · obtain ⟨-, hbefore, invocation, hexecuted⟩ := history_turns hwithin turn hturn
    refine ⟨hbefore.executed hexecuted, fun hok => ?_, fun hcarried => ?_, fun hcarried => ?_⟩
    · exact hexecuted.unchanged hok
    · obtain ⟨name, package, hcommand, hpackage, hgiven, -⟩ := hexecuted.instructions hobjects hcarried
      rw [hbefore.snapshot] at hpackage
      exact ⟨name, package, hcommand, hpackage, hgiven⟩
    · obtain ⟨skill, path, package, document, hcommand, hloaded, hpackage, hdocument, hgiven, -⟩ :=
        hexecuted.content hobjects hcarried
      rw [hbefore.snapshot] at hpackage
      exact ⟨skill, path, package, document, hcommand, hloaded, hpackage, hdocument, hgiven⟩
  · refine Pairwise.imp_of_mem ?_ (pairwise_history hwithin commands)
    intro earlier later hearlier hlater hgrows
    obtain ⟨-, -, _, hfirst⟩ := history_turns hwithin earlier hearlier
    obtain ⟨-, -, _, hsecond⟩ := history_turns hwithin later hlater
    refine ⟨fun hgiven hagain hsame => ?_, fun hgiven hagain hsame => ?_⟩
    · obtain ⟨name, _, hcommand, -, -, -, hloaded⟩ := hfirst.instructions hobjects hgiven
      obtain ⟨name', _, hcommand', -, -, hfresh, -⟩ := hsecond.instructions hobjects hagain
      cases (hcommand.symm.trans hsame).trans hcommand'
      rw [hgrows.loaded name hloaded] at hfresh
      cases hfresh
    · obtain ⟨skill, path, _, _, hcommand, -, -, -, -, -, hloaded⟩ := hfirst.content hobjects hgiven
      obtain ⟨skill', path', _, _, hcommand', -, -, -, -, hfresh, -⟩ :=
        hsecond.content hobjects hagain
      cases (hcommand.symm.trans hsame).trans hcommand'
      rw [hgrows.references _ hloaded] at hfresh
      cases hfresh

namespace OneSkill

inductive Content where
  | null
  | text (value : String)
  | object (members : List (String × Content))

local instance : JsonValue Content Unit where
  asF64 _ := none
  asBool _ := none
  asStr
    | .text value => some value
    | _ => none
  asArray _ := none
  asObject
    | .object members => some members
    | _ => none
  ofF64 _ := .null
  ofBool _ := .null
  ofNat _ := .null
  ofStr := .text
  ofArray _ := .null
  ofObject := .object

theorem readsObjects : ReadsObjects Content := by
  intro members key hnodup
  clear hnodup
  change (members.find? (·.1 = key)).map (·.2) = members.lookup key
  induction members with
  | nil => rfl
  | cons first rest ih =>
    by_cases hkey : first.1 = key
    · rw [find?_cons_of_pos (by simpa using hkey), ← hkey]
      simp [lookup]
    · rw [find?_cons_of_neg (by simpa using hkey), ih, lookup_cons,
        beq_false_of_ne (Ne.symm hkey)]

def oneSkill : SkillSnapshot :=
  let notes : ReferenceDocument := ⟨"notes.md", "slice", 5, ⟨"d", by decide⟩⟩
  let tuning : SkillPackage :=
    ⟨"tuning", "Tunes.", "tuning", "Read.", (∅ : TreeMap String _).insert "notes.md" notes, true, ⟨"d", by decide⟩⟩
  ⟨(∅ : TreeMap String _).insert "tuning" tuning, ⟨"d", by decide⟩⟩

def limits : SkillConfig := ⟨4096, 1, 4, 1⟩

def commands : List (SkillCommand × AgentToolInvocation Content) :=
  [(.loadSkill "tuning", ⟨"1", "load_skill", .null⟩),
    (.loadReference "tuning" "notes.md", ⟨"2", "load_skill_reference", .null⟩),
    (.loadReference "tuning" "notes.md", ⟨"3", "load_skill_reference", .null⟩)]

theorem skill_disclosure_is_bounded_tuning :
    ∃ session, new oneSkill limits [] = .ok session ∧
      ∀ turn ∈ session.history commands, Within oneSkill limits [] turn.after :=
  ⟨_, rfl, fun turn hturn =>
    ((skill_disclosure_is_bounded readsObjects rfl commands).2.1 turn hturn).1⟩

end OneSkill

end ScxAgent.Episode.SkillSession
