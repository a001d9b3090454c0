import Mathlib
import ScxAgent.ExceptRules
import ScxAgent.JsonGrammar
import ScxAgent.JsonTreeText
import ScxAgent.Utf8

/-!
# The activation socket

A client of `activation/source/unix.rs` sends an event or a request as one JSON object. The reader
takes what arrives until the client stops or the socket times out, and parses that.
-/

namespace ScxAgent.Activation

open JsonTree JsonGrammar ExceptRules List JsonLibrary

variable {F : Type} {payload : List UInt8}

/-! ## Messages -/

inductive Scope where
  | host
  | cgroup (path : String)

inductive EventSource where
  | cli
  | program (name : String)
  | internal

inductive Severity where
  | info
  | warning
  | critical

structure ActivationEvent (F : Type) where
  source : EventSource
  eventType : String
  severity : Severity
  scope : Scope
  timestampNs : BitVec 128
  evidence : JsonTree F

structure ActivationRequest (F : Type) where
  requestId : String
  wait : Bool
  requestedSkills : List String
  event : ActivationEvent F

def ActivationRequest.fireAndForget (event : ActivationEvent F) : ActivationRequest F where
  requestId := s!"legacy-{event.timestampNs.toNat}"
  wait := false
  requestedSkills := []
  event

/-! ## Their JSON -/

/-- The name of a variant, and its content if it has any. -/
def tagged : JsonTree F → Except String (String × Option (JsonTree F))
  | .str name => .ok (name, none)
  | .obj [(name, content)] => .ok (name, some content)
  | _ => .error "invalid type: expected an enum"

def unitContent : Option (JsonTree F) → Except String Unit
  | none | some .null => .ok ()
  | some _ => .error "invalid type: expected unit variant"

def textContent : Option (JsonTree F) → Except String String
  | none => .error "invalid type: expected newtype variant"
  | some content => text content

def Scope.encode : Scope → JsonTree F
  | .host => .str "Host"
  | .cgroup path => .obj [("Cgroup", .str path)]

def Scope.decode (tree : JsonTree F) : Except String Scope := do
  match ← tagged tree with
  | ("Host", content) => unitContent content; return .host
  | ("Cgroup", content) => return .cgroup (← textContent content)
  | (name, _) => .error s!"unknown variant: {name}"

def EventSource.encode : EventSource → JsonTree F
  | .cli => .str "Cli"
  | .program name => .obj [("Program", .str name)]
  | .internal => .str "Internal"

def EventSource.decode (tree : JsonTree F) : Except String EventSource := do
  match ← tagged tree with
  | ("Cli", content) => unitContent content; return .cli
  | ("Program", content) => return .program (← textContent content)
  | ("Internal", content) => unitContent content; return .internal
  | (name, _) => .error s!"unknown variant: {name}"

def Severity.encode : Severity → JsonTree F
  | .info => .str "Info"
  | .warning => .str "Warning"
  | .critical => .str "Critical"

def Severity.decode (tree : JsonTree F) : Except String Severity := do
  let (name, content) ← tagged tree
  let severity ← variant [("Info", Severity.info), ("Warning", .warning), ("Critical", .critical)]
    (.str name : JsonTree F)
  unitContent content
  return severity

def ActivationEvent.encode (event : ActivationEvent F) : JsonTree F :=
  .obj [("source", event.source.encode), ("event_type", .str event.eventType),
    ("severity", event.severity.encode), ("scope", event.scope.encode),
    ("timestamp_ns", .int event.timestampNs.toNat), ("evidence", event.evidence)]

def ActivationEvent.decode (tree : JsonTree F) : Except String (ActivationEvent F) := do
  let source ← required "source" EventSource.decode tree
  let eventType ← required "event_type" text tree
  let severity ← required "severity" Severity.decode tree
  let scope ← required "scope" Scope.decode tree
  let timestampNs ← required "timestamp_ns" (unsigned 128) tree
  let evidence ← required "evidence" .ok tree
  return ⟨source, eventType, severity, scope, timestampNs, evidence⟩

def ActivationRequest.encode (request : ActivationRequest F) : JsonTree F :=
  .obj ([("request_id", .str request.requestId), ("wait", .bool request.wait)] ++
    (if request.requestedSkills = [] then []
      else [("requested_skills", .arr (request.requestedSkills.map .str))]) ++
    [("event", request.event.encode)])

def ActivationRequest.decode (tree : JsonTree F) : Except String (ActivationRequest F) := do
  let requestId ← required "request_id" text tree
  let wait ← required "wait" boolean tree
  let requestedSkills ← defaulted "requested_skills" [] (items text) tree
  let event ← required "event" ActivationEvent.decode tree
  return ⟨requestId, wait, requestedSkills, event⟩

theorem EventSource.decode_encode (source : EventSource) :
    EventSource.decode (source.encode : JsonTree F) = .ok source := by
  cases source <;> rfl

theorem Scope.decode_encode (scope : Scope) :
    Scope.decode (scope.encode : JsonTree F) = .ok scope := by
  cases scope <;> rfl

theorem Severity.decode_encode (severity : Severity) :
    Severity.decode (severity.encode : JsonTree F) = .ok severity := by
  cases severity <;> rfl

theorem ActivationEvent.decode_encode (event : ActivationEvent F) :
    ActivationEvent.decode event.encode = .ok event := by
  simp [decode, encode, required, field, EventSource.decode_encode, Severity.decode_encode,
    Scope.decode_encode, unsigned_toNat, text, bind, Except.bind, pure, Except.pure]

theorem mapM_text (texts : List String) :
    texts.mapM (text ∘ (.str : String → JsonTree F)) = .ok texts := by
  induction texts with
  | nil => rfl
  | cons first rest ih => rw [mapM_cons, ih]; rfl

theorem ActivationRequest.decode_encode (request : ActivationRequest F) :
    ActivationRequest.decode request.encode = .ok request := by
  obtain ⟨requestId, wait, requestedSkills, event⟩ := request
  by_cases hskills : requestedSkills = [] <;>
    simp [decode, encode, required, defaulted, field, hskills, items, mapM_text, text, boolean,
      ActivationEvent.decode_encode, bind, Except.bind, pure, Except.pure]

/-- What a client sends. -/
inductive Message (F : Type) where
  | event (sent : ActivationEvent F)
  | request (sent : ActivationRequest F)

def Message.encode : Message F → JsonTree F
  | .event sent => sent.encode
  | .request sent => sent.encode

/-- What the client asks for. -/
def Message.meant : Message F → ActivationRequest F
  | .event sent => .fireAndForget sent
  | .request sent => sent

/-- A value with an event in it is a request; any other is the event itself. -/
def fromValue (value : JsonTree F) : Except String (ActivationRequest F) :=
  match value with
  | .obj members =>
    if (members.lookup "event").isSome then ActivationRequest.decode value
    else do return .fireAndForget (← ActivationEvent.decode value)
  | _ => do return .fireAndForget (← ActivationEvent.decode value)

theorem fromValue_encode (message : Message F) : fromValue message.encode = .ok message.meant := by
  cases message with
  | event sent =>
    have hevent : fromValue sent.encode =
        (do return ActivationRequest.fireAndForget (← ActivationEvent.decode sent.encode)) := rfl
    rw [Message.encode, hevent, ActivationEvent.decode_encode]
    rfl
  | request sent =>
    have hevent : fromValue sent.encode = ActivationRequest.decode sent.encode := by
      by_cases hskills : sent.requestedSkills = [] <;>
        simp [fromValue, ActivationRequest.encode, hskills, lookup]
    rw [Message.encode, hevent, ActivationRequest.decode_encode, Message.meant]

theorem Message.encode_eq_obj (message : Message F) : ∃ members, message.encode = .obj members := by
  cases message <;> exact ⟨_, rfl⟩

/-! ## The socket -/

/-- One `read` of the socket; no bytes are the end of the stream. -/
inductive ReadOutcome where
  | ok (bytes : List UInt8)
  | timedOut (error : String)
  | failed (error : String)

def ReadOutcome.bytes : ReadOutcome → List UInt8
  | .ok bytes => bytes
  | _ => []

def maxActivationBytes : ℕ := 64 * 1024

def tooLong : String := "activation event exceeds 64 KiB"

def readPayload (payload : List UInt8) : List ReadOutcome → Except String (List UInt8)
  | [] => .ok payload
  | .ok bytes :: reads =>
    if bytes = [] then .ok payload
    else if (payload ++ bytes).length > maxActivationBytes then .error tooLong
    else readPayload (payload ++ bytes) reads
  | .timedOut error :: _ => if payload = [] then .error error else .ok payload
  | .failed error :: _ => .error error

theorem readPayload_begins {result : List UInt8} {reads : List ReadOutcome}
    (h : readPayload payload reads = .ok result) :
    result <+: payload ++ reads.flatMap ReadOutcome.bytes := by
  fun_induction readPayload payload reads with
  | case1 payload => cases h; simp
  | case2 payload => cases h; simp
  | case3 => cases h
  | case4 payload bytes reads _ _ ih =>
    rw [flatMap_cons, ← append_assoc]
    exact ih h
  | case5 => cases h
  | case6 payload => cases h; simp
  | case7 => cases h

theorem readPayload_chunks {chunks : List (List UInt8)} {stop : List ReadOutcome}
    (hchunks : [] ∉ chunks) (hstop : stop = [] ∨ ∃ error, stop = [.timedOut error])
    (hpayload : payload ++ chunks.flatten ≠ [])
    (hsize : (payload ++ chunks.flatten).length ≤ maxActivationBytes) :
    readPayload payload (chunks.map .ok ++ stop) = .ok (payload ++ chunks.flatten) := by
  induction chunks generalizing payload with
  | nil =>
    rw [flatten_nil, append_nil] at hpayload ⊢
    rcases hstop with rfl | ⟨error, rfl⟩
    · rfl
    · exact if_neg hpayload
  | cons chunk chunks ih =>
    rw [mem_cons, not_or] at hchunks
    rw [flatten_cons, ← append_assoc] at hpayload hsize ⊢
    have hshort : (payload ++ chunk).length ≤ maxActivationBytes := by
      rw [length_append] at hsize
      omega
    rw [map_cons, cons_append, readPayload, if_neg (Ne.symm hchunks.1),
      if_neg (Nat.not_lt.mpr hshort)]
    exact ih hchunks.2 hpayload hsize

variable [JsonLibrary F]

/-- `serde_json::from_slice`. -/
def fromSlice (bytes : List UInt8) : Except String (JsonTree F) :=
  match Utf8.decode bytes with
  | none => .error "invalid unicode code point"
  | some text => JsonLibrary.parse text

/-- `serde_json::to_vec`. -/
def toVec (tree : JsonTree F) : List UInt8 := Utf8.encode (JsonLibrary.print tree)

def readActivation (reads : List ReadOutcome) : Except String (ActivationRequest F) := do
  let payload ← readPayload [] reads
  if payload.length > maxActivationBytes then .error tooLong
  fromValue (← fromSlice payload)


/-! ## What is read -/

/-- The parser accepts only complete texts, and an object is written from brace to brace. -/
structure Exact (F : Type) [JsonLibrary F] : Prop where
  complete : ∀ {text : List Char} {tree : JsonTree F}, JsonLibrary.parse text = .ok tree →
    Complete text
  braces : ∀ members : List (String × JsonTree F), ∃ body,
    JsonLibrary.print (.obj members) = '\x7b' :: body ++ ['\x7d']

/-- Bytes from the beginning of a message are no value, or they are all of the message. -/
theorem fromSlice_begins (hexact : Exact F) {message : Message F} {value : JsonTree F}
    (hdecodes : parse (print message.encode) = .ok message.encode)
    (hpayload : payload <+: toVec message.encode) (h : fromSlice payload = .ok value) :
    value = message.encode := by
  unfold fromSlice at h
  split at h
  · cases h
  next text htext =>
    obtain ⟨members, hmembers⟩ := message.encode_eq_obj
    obtain ⟨body, hbody⟩ := hexact.braces members
    obtain ⟨rest, hrest⟩ := hpayload
    rw [← Utf8.encode_of_decode htext, toVec] at hrest
    have hall : text = print message.encode := by
      have hwhole := hexact.complete hdecodes
      have hbegins := Utf8.prefix_of_encode hrest
      rw [hmembers, hbody] at hwhole hbegins ⊢
      exact hwhole.eq_of_begins (hexact.complete h) hbegins
    rw [hall, hdecodes] at h
    exact (Except.ok.inj h).symm

/-- However the bytes of a message arrive and wherever they stop, what is read is what the client
meant or an error; and it is what the client meant when all of them arrive. -/
theorem truncated_activation_is_refused (hexact : Exact F) (message : Message F)
    (hdecodes : JsonLibrary.parse (JsonLibrary.print message.encode) = .ok message.encode)
    (hsize : (toVec message.encode).length ≤ maxActivationBytes) :
    (∀ (reads : List ReadOutcome) (request : ActivationRequest F),
      reads.flatMap ReadOutcome.bytes <+: toVec message.encode →
      readActivation reads = .ok request → request = message.meant) ∧
    ∀ (chunks : List (List UInt8)) (stop : List ReadOutcome), [] ∉ chunks →
      chunks.flatten = toVec message.encode →
      (stop = [] ∨ ∃ error, stop = [.timedOut error]) →
      readActivation (chunks.map .ok ++ stop) = .ok message.meant := by
  constructor
  · intro reads request hreads h
    unfold readActivation at h
    obtain ⟨payload, hpayload, h⟩ := bind_eq_ok.mp h
    obtain ⟨-, h⟩ := of_guard_eq_ok h
    obtain ⟨value, hvalue, h⟩ := bind_eq_ok.mp h
    have hbegins := (readPayload_begins hpayload).trans hreads
    rw [fromSlice_begins hexact hdecodes hbegins hvalue, fromValue_encode] at h
    exact (Except.ok.inj h).symm
  · intro chunks stop hchunks hflatten hstop
    have hnonempty : toVec message.encode ≠ [] := by
      obtain ⟨members, hmembers⟩ := message.encode_eq_obj
      obtain ⟨body, hbody⟩ := hexact.braces members
      rw [toVec, hmembers, hbody]
      simp [Utf8.encode, String.utf8EncodeChar_ne_nil]
    have hpayload : readPayload [] (chunks.map .ok ++ stop) = .ok (toVec message.encode) := by
      rw [← hflatten] at hnonempty hsize ⊢
      exact readPayload_chunks hchunks hstop hnonempty hsize
    have hvalue : fromSlice (toVec message.encode) = .ok message.encode := by
      rw [fromSlice, toVec, Utf8.decode_encode]
      exact hdecodes
    rw [readActivation, hpayload, ok_bind, if_neg (Nat.not_lt.mpr hsize)]
    change (fromSlice (toVec message.encode) >>= fromValue) = _
    rw [hvalue, ok_bind, fromValue_encode]

namespace BareEvent

@[reducible] def written : JsonLibrary Unit := textLibrary (fun _ => 0) fun _ => ()

/-- A value is taken only from the text that it is written as. -/
local instance : JsonLibrary Unit where
  print := written.print
  parse text := do
    let tree ← written.parse text
    if written.print tree = text then .ok tree else .error "expected value"
  drift := id

theorem parse_print (tree : JsonTree Unit) :
    parse (print tree) = .ok tree := by
  have hparse := (textLibrary_lawful (fun _ : Unit => 0) fun _ => ()).parse_print tree
  rw [(mapFloat_eq_self_iff _ tree).mpr fun _ _ => rfl] at hparse
  change (written.parse (written.print tree) >>= _) = _
  rw [hparse, ok_bind]
  exact if_pos rfl

theorem exact_written : Exact Unit where
  complete {text tree} h := by
    obtain ⟨read, -, h⟩ := bind_eq_ok.mp h
    split at h
    next hprint =>
      rw [← hprint]
      exact (derives_render 0 _).element
    · cases h
  braces members := by
    cases members with
    | nil => exact ⟨[], rfl⟩
    | cons member members => exact ⟨_, rfl⟩

def ping : Message Unit := .event ⟨.cli, "ping", .info, .host, 7, .null⟩

theorem truncated_activation_is_refused_ping :
    readActivation [.ok (toVec ping.encode)] = .ok ping.meant :=
  (truncated_activation_is_refused exact_written ping (parse_print _) (by decide +kernel)).2
    [toVec ping.encode] [] (by decide +kernel) flatten_singleton (.inl rfl)

end BareEvent

end ScxAgent.Activation
