import ScxAgent.Evaluation.Protocol

/-!
# Tool calls and the skill session

The tool calls of `agent/tool_call.rs` and `agent/command.rs`, and the session of `skill/session.rs`,
which discloses skills and their references to the agent.
-/

namespace ScxAgent.Episode

open Std Evaluation

/-! ## Tool calls -/

structure AgentToolInvocation (V : Type) where
  id : String
  name : String
  arguments : V

structure AgentToolResult (V : Type) where
  callId : String
  name : String
  ok : Bool
  content : V

namespace AgentToolResult

variable {V F : Type}

def success (invocation : AgentToolInvocation V) (content : V) : AgentToolResult V :=
  ⟨invocation.id, invocation.name, true, content⟩

def failure [JsonValue V F] (invocation : AgentToolInvocation V) (message : String) :
    AgentToolResult V :=
  ⟨invocation.id, invocation.name, false, JsonValue.ofObject [("error", JsonValue.ofStr message)]⟩

end AgentToolResult

inductive SkillCommand where
  | loadSkill (name : String)
  | loadReference (skill path : String)
  deriving DecidableEq

/-! ## Skills -/

structure ReferenceDocument where
  path : String
  content : String
  byteLen : ℕ
  digest : Digest

structure SkillPackage where
  name : String
  description : String
  sourcePath : String
  instructions : String
  references : TreeMap String ReferenceDocument
  allowImplicitInvocation : Bool
  digest : Digest

def SkillPackage.logicalPath (package : SkillPackage) : String :=
  s!"skill://{package.name}/SKILL.md"

structure SkillSnapshot where
  packages : TreeMap String SkillPackage
  digest : Digest

structure SkillConfig where
  maxCatalogChars : ℕ
  maxLoadedSkills : ℕ
  maxSkillRounds : ℕ
  maxReferenceReads : ℕ

structure SkillExecution (V : Type) where
  result : AgentToolResult V
  auditEvent : String
  /-- The members of the audited object. -/
  auditData : List (String × V)

structure SkillSession where
  snapshot : SkillSnapshot
  explicit : TreeSet String
  loaded : TreeSet String
  loadedReferences : TreeSet (String × String) (compareLex (compareOn Prod.fst) (compareOn Prod.snd))
  maxLoadedSkills : ℕ
  maxReferenceReads : ℕ
  maxSkillRounds : ℕ
  maxCatalogChars : ℕ

namespace SkillSession

def request (snapshot : SkillSnapshot) (explicit : TreeSet String) (name : String) :
    Except String (TreeSet String) :=
  if explicit.contains name then .error s!"activation requested duplicate skill '{name}'"
  else if (snapshot.packages[name]?).isNone then
    .error s!"activation requested unavailable skill '{name}'"
  else .ok (explicit.insert name)

def new (snapshot : SkillSnapshot) (config : SkillConfig) (requested : List String) :
    Except String SkillSession := do
  let explicit ← requested.foldlM (request snapshot) ∅
  if explicit.size > config.maxLoadedSkills then
    .error s!"activation requested {explicit.size} skills, exceeding the configured limit of {config.maxLoadedSkills}"
  return {
    snapshot
    explicit
    loaded := explicit
    loadedReferences := ∅
    maxLoadedSkills := config.maxLoadedSkills
    maxReferenceReads := config.maxReferenceReads
    maxSkillRounds := config.maxSkillRounds
    maxCatalogChars := config.maxCatalogChars }

variable (session : SkillSession) {V F : Type} [JsonValue V F]

def skillPayload (package : SkillPackage) (explicitlyLoaded : Bool) : V :=
  JsonValue.ofObject
    [("skill", JsonValue.ofStr package.name),
      ("path", JsonValue.ofStr package.logicalPath),
      ("digest", JsonValue.ofStr package.digest.value),
      ("explicitly_loaded", JsonValue.ofBool explicitlyLoaded),
      ("instructions", JsonValue.ofStr package.instructions),
      ("references", JsonValue.ofArray (package.references.toList.map fun entry =>
        JsonValue.ofObject
          [("path", JsonValue.ofStr entry.2.path),
            ("byte_len", JsonValue.ofNat entry.2.byteLen),
            ("digest", JsonValue.ofStr entry.2.digest.value)]))]

def failure (invocation : AgentToolInvocation V) (event : String) (auditData : List (String × V))
    (error : String) : SkillExecution V :=
  ⟨.failure invocation error, event, auditData ++ [("error", JsonValue.ofStr error)]⟩

def loadSkill (name : String) (invocation : AgentToolInvocation V) :
    SkillExecution V × SkillSession :=
  let refused (error : String) :=
    (failure invocation "skill_load_failed" [("skill", JsonValue.ofStr name)] error, session)
  match session.snapshot.packages[name]? with
  | none => refused s!"skill '{name}' is unavailable"
  | some package =>
    if session.loaded.contains name then
      ({ result := .success invocation (JsonValue.ofObject
          [("skill", JsonValue.ofStr name),
            ("already_loaded", JsonValue.ofBool true),
            ("digest", JsonValue.ofStr package.digest.value)])
         auditEvent := "skill_loaded"
         auditData :=
          [("skill", JsonValue.ofStr name),
            ("digest", JsonValue.ofStr package.digest.value),
            ("invocation", JsonValue.ofStr
              (if session.explicit.contains name then "explicit" else "implicit")),
            ("already_loaded", JsonValue.ofBool true)] }, session)
    else if !package.allowImplicitInvocation then
      refused s!"skill '{name}' requires explicit invocation"
    else if session.loaded.size = session.maxLoadedSkills then
      refused s!"loaded skill limit of {session.maxLoadedSkills} has been reached"
    else
      ({ result := .success invocation (skillPayload package false)
         auditEvent := "skill_loaded"
         auditData :=
          [("skill", JsonValue.ofStr name),
            ("path", JsonValue.ofStr package.logicalPath),
            ("source_path", JsonValue.ofStr package.sourcePath),
            ("digest", JsonValue.ofStr package.digest.value),
            ("invocation", JsonValue.ofStr "implicit"),
            ("already_loaded", JsonValue.ofBool false),
            ("instruction_bytes", JsonValue.ofNat package.instructions.utf8ByteSize),
            ("reference_count", JsonValue.ofNat package.references.size)] },
        { session with loaded := session.loaded.insert name })

def loadReference (skill path : String) (invocation : AgentToolInvocation V) :
    SkillExecution V × SkillSession :=
  let refused (error : String) :=
    (failure invocation "skill_reference_load_failed"
      [("skill", JsonValue.ofStr skill), ("path", JsonValue.ofStr path)] error, session)
  if !session.loaded.contains skill then
    refused s!"skill '{skill}' must be loaded before its references"
  else match session.snapshot.packages[skill]? with
  | none => refused s!"skill '{skill}' is unavailable"
  | some package =>
    match package.references[path]? with
    | none => refused s!"reference '{path}' is unavailable for skill '{skill}'"
    | some reference =>
      if session.loadedReferences.contains (skill, path) then
        ({ result := .success invocation (JsonValue.ofObject
            [("skill", JsonValue.ofStr skill),
              ("path", JsonValue.ofStr path),
              ("already_loaded", JsonValue.ofBool true),
              ("digest", JsonValue.ofStr reference.digest.value)])
           auditEvent := "skill_reference_loaded"
           auditData :=
            [("skill", JsonValue.ofStr skill),
              ("path", JsonValue.ofStr path),
              ("digest", JsonValue.ofStr reference.digest.value),
              ("already_loaded", JsonValue.ofBool true)] }, session)
      else if session.loadedReferences.size = session.maxReferenceReads then
        refused s!"skill reference read limit of {session.maxReferenceReads} has been reached"
      else
        ({ result := .success invocation (JsonValue.ofObject
            [("skill", JsonValue.ofStr skill),
              ("path", JsonValue.ofStr path),
              ("already_loaded", JsonValue.ofBool false),
              ("digest", JsonValue.ofStr reference.digest.value),
              ("byte_len", JsonValue.ofNat reference.byteLen),
              ("content", JsonValue.ofStr reference.content)])
           auditEvent := "skill_reference_loaded"
           auditData :=
            [("skill", JsonValue.ofStr skill),
              ("path", JsonValue.ofStr path),
              ("digest", JsonValue.ofStr reference.digest.value),
              ("byte_len", JsonValue.ofNat reference.byteLen),
              ("already_loaded", JsonValue.ofBool false)] },
          { session with loadedReferences := session.loadedReferences.insert (skill, path) })

def execute (command : SkillCommand) (invocation : AgentToolInvocation V) :
    SkillExecution V × SkillSession :=
  match command with
  | .loadSkill name => session.loadSkill name invocation
  | .loadReference skill path => session.loadReference skill path invocation

end SkillSession

end ScxAgent.Episode
