import ScxAgent.JsonTree

/-!
# The MCP client

Any number of threads call `request` on one connection. Each of them enters a sender into the
table of pending responses, writes its frame under the lock of the pipe and waits on its channel. One
reader thread takes frames from the server, hands responses to the senders in the table and fails all
of them when it stops. A step is what one thread does between two accesses to shared state.
-/

/-- A library that writes values as bytes and reads them. -/
class JsonBytes (F : Type) where
  toVec : JsonTree F → Except String (List UInt8)
  fromSlice : List UInt8 → Except String (JsonTree F)

namespace ScxAgent.Mcp

open JsonTree

inductive McpAdapterErrorKind where
  | invalidConfig
  | spawn
  | io
  | timeout
  | protocol
  | rpc
  | tool
  | manifest
  deriving DecidableEq

structure McpAdapterError where
  kind : McpAdapterErrorKind
  message : String
  retryable : Bool := false
  deriving DecidableEq

variable {F : Type}

abbrev PendingResponse (F : Type) := Except McpAdapterError (JsonTree F)

def maxTransportFrameBytes : ℕ := 8 * 1024 * 1024

/-! ## Frames -/

def newline : UInt8 := 10

def carriageReturn : UInt8 := 13

/-- The check of `write_frame` before it writes. -/
def writable (payload : List UInt8) : Bool :=
  !payload.contains newline && !payload.contains carriageReturn

/-- What `read_frame` does with what `fill_buf` gives it. -/
inductive Scan where
  | more (payload : List UInt8)
  | frame (payload rest : List UInt8)
  | failed (error : McpAdapterError)

def frameTooLong : McpAdapterError :=
  ⟨.protocol, s!"MCP frame payload exceeds limit: more than {maxTransportFrameBytes} bytes", false⟩

def scan (payload available : List UInt8) : Scan :=
  if newline ∈ available then
    let line := available.takeWhile (· ≠ newline)
    if payload.length + line.length > maxTransportFrameBytes then .failed frameTooLong
    else if payload ++ line = [] then
      .failed ⟨.protocol, "MCP frame payload must not be empty", false⟩
    else if carriageReturn ∈ payload ++ line then
      .failed ⟨.protocol, "MCP newline-delimited JSON payload contains a raw carriage return", false⟩
    else .frame (payload ++ line) (available.drop (line.length + 1))
  else if payload.length + available.length > maxTransportFrameBytes then .failed frameTooLong
  else .more (payload ++ available)

/-! ## Messages -/

/-- A member of an object. -/
def get (members : List (String × JsonTree F)) (name : String) : Option (JsonTree F) :=
  members.lookup name

def asU64 : JsonTree F → Option ℕ
  | .int n => if 0 ≤ n ∧ n.toNat < 2 ^ 64 then some n.toNat else none
  | _ => none

def asI64 : JsonTree F → Option ℤ
  | .int n => if n.natAbs < 2 ^ 63 ∨ (n < 0 ∧ n.natAbs = 2 ^ 63) then some n else none
  | _ => none

def asStr : JsonTree F → Option String
  | .str s => some s
  | _ => none

def parseError : JsonTree F → Except McpAdapterError McpAdapterError
  | .obj error =>
    match (get error "code").bind asI64 with
    | none => .error ⟨.protocol, "MCP JSON-RPC error object is missing an integer code", false⟩
    | some code =>
      match (get error "message").bind asStr with
      | none => .error ⟨.protocol, "MCP JSON-RPC error object is missing a string message", false⟩
      | some message => .ok ⟨.rpc, s!"MCP JSON-RPC error {code}: {message}", false⟩
  | _ => .error ⟨.protocol, "MCP JSON-RPC error member must be an object", false⟩

def parseMessage : JsonTree F → Except McpAdapterError (Option (ℕ × PendingResponse F))
  | .obj object =>
    if (get object "jsonrpc").bind asStr ≠ some "2.0" then
      .error ⟨.protocol, "MCP message does not declare jsonrpc=2.0", false⟩
    else match get object "id" with
      -- Notifications and server-originated requests are not correlated responses.
      | none => .ok none
      | some idValue =>
        match asU64 idValue with
        | none =>
          .error ⟨.protocol, "MCP response id must echo the numeric client request id", false⟩
        | some id =>
          match get object "result", get object "error" with
          | some result, none => .ok (some (id, .ok result))
          | none, some error =>
            match parseError error with
            | .error error => .error error
            | .ok error => .ok (some (id, .error error))
          | _, _ =>
            .error ⟨.protocol, "MCP response must contain exactly one of result or error", false⟩
  | _ => .error ⟨.protocol, "MCP JSON-RPC message must be an object", false⟩

variable [JsonBytes F]

def parseResponse (payload : List UInt8) :
    Except McpAdapterError (Option (ℕ × PendingResponse F)) :=
  match JsonBytes.fromSlice payload with
  | .error error => .error ⟨.protocol, s!"MCP frame is not valid JSON: {error}", false⟩
  | .ok value => parseMessage value

/-! ## Threads -/

structure Request (F : Type) where
  method : String
  params : JsonTree F
  timeoutMs : ℕ

/-- Where a thread is in `request`. -/
inductive Point (F : Type) where
  /-- Before the first look at `closed`. -/
  | called
  /-- Before `fetch_add`. -/
  | opened
  /-- Before the sender is entered into the table. -/
  | numbered
  /-- Before the second look at `closed`. -/
  | inserted (payload : List UInt8)
  /-- Before the lock of the pipe. -/
  | dispatching (payload : List UInt8)
  /-- With the lock; the rest has yet to be written. -/
  | writing (rest : List UInt8)
  /-- Before `closed` is set because of a failed write. -/
  | refused (error : McpAdapterError)
  /-- In `recv_timeout`. -/
  | waiting
  /-- Before `remove_pending`. -/
  | removing (error : McpAdapterError)
  | returned (result : PendingResponse F)

/-- A thread in `request` with its variables: `id` once it has one, and the receiving end of its
channel. -/
structure Call (F : Type) where
  request : Request F
  point : Point F
  id : Option ℕ
  channel : List (PendingResponse F)

inductive Reader (F : Type) where
  /-- In `read_frame`, with the bytes that `BufReader` has not given out. -/
  | reading (payload buffer : List UInt8)
  /-- Before the table is locked for a response. -/
  | delivering (id : ℕ) (result : PendingResponse F) (buffer : List UInt8)
  /-- Before `closed` is set. -/
  | failing (error : McpAdapterError)
  /-- Before the table is drained. -/
  | draining (error : McpAdapterError)
  | sending (error : McpAdapterError) (senders : List ℕ)
  | stopped

/-- The connection. A sender in the table is the number of its call. `room` is the space in the pipe
to the server, which is `broken` when the server has closed its end. -/
structure Client (F : Type) where
  nextId : ℕ
  closed : Bool
  pending : List (ℕ × ℕ)
  calls : List (Call F)
  holder : Option ℕ
  room : ℕ
  broken : Bool
  reader : Reader F
  stderrTail : String
  dropped : Bool

namespace Client

omit [JsonBytes F]

def unavailable (s : Client F) (message : String) : McpAdapterError :=
  ⟨.io, message ++ (if s.stderrTail = "" then "" else s!"; server stderr: {s.stderrTail}"), true⟩

def removePending (pending : List (ℕ × ℕ)) (id : ℕ) : List (ℕ × ℕ) :=
  pending.filter fun entry => entry.1 ≠ id

def insertPending (pending : List (ℕ × ℕ)) (id i : ℕ) : List (ℕ × ℕ) :=
  (id, i) :: removePending pending id

/-- The sender of a call has not been dropped. -/
def connected (s : Client F) (i : ℕ) : Bool :=
  s.pending.any (fun entry => entry.2 = i) ||
    match s.reader with
    | .sending _ senders => senders.contains i
    | _ => false

def goto (s : Client F) (i : ℕ) (call : Call F) (point : Point F) : Client F :=
  { s with calls := s.calls.set i { call with point } }

def send (calls : List (Call F)) (i : ℕ) (result : PendingResponse F) : List (Call F) :=
  calls.modify i fun call => { call with channel := call.channel ++ [result] }

end Client

def Request.encode (request : Request F) (id : ℕ) : Except String (List UInt8) :=
  JsonBytes.toVec (.obj [("id", .int id), ("jsonrpc", .str "2.0"), ("method", .str request.method),
    ("params", request.params)])

def Request.timedOut (request : Request F) : McpAdapterError :=
  ⟨.timeout, s!"MCP request '{request.method}' timed out after {request.timeoutMs} ms", true⟩

inductive Event (F : Type) where
  | call (request : Request F)
  | act (i : ℕ)
  | wrote (i count : ℕ)
  | writeFailed (i : ℕ) (reason : String)
  | timeout (i : ℕ)
  | receive (chunk : List UInt8)
  | eof
  | readError (reason : String)
  | reader
  | serverReads (count : ℕ)
  | serverCloses
  | stderr (tail : String)
  | drop

namespace Client

/-- The next step of a thread that does not depend on the pipe or the clock. -/
def advance (s : Client F) (i : ℕ) (call : Call F) : Option (Client F) :=
  let request := call.request
  match call.point with
  | .called =>
    if s.closed then
      s.goto i call (.returned (.error (s.unavailable "MCP connection is closed")))
    else if request.timeoutMs = 0 then
      s.goto i call (.returned (.error
        ⟨.invalidConfig, "MCP request timeout must be greater than zero", false⟩))
    else s.goto i call .opened
  | .opened =>
    some { s.goto i { call with id := some s.nextId } .numbered with
      nextId := (s.nextId + 1) % 2 ^ 64 }
  | .numbered => do
    let id ← call.id
    match request.encode id with
    | .error error =>
      s.goto i call (.returned (.error
        ⟨.protocol, s!"failed to encode MCP request '{request.method}': {error}", false⟩))
    | .ok payload =>
      if payload.length > maxTransportFrameBytes then
        s.goto i call (.returned (.error
          ⟨.protocol, s!"MCP request '{request.method}' exceeds the transport frame limit", false⟩))
      else
        some { s.goto i call (.inserted payload) with pending := insertPending s.pending id i }
  | .inserted payload =>
    if s.closed then
      s.goto i call (.removing (s.unavailable "MCP connection closed before request dispatch"))
    else s.goto i call (.dispatching payload)
  | .dispatching payload =>
    if s.holder.isSome then none
    else if writable payload then
      some { s.goto i call (.writing (payload ++ [newline])) with holder := some i }
    else
      s.goto i call (.refused (s.unavailable (s!"failed to write MCP request '{request.method}': " ++
        "MCP newline-delimited JSON payload contains a raw line break")))
  | .writing _ => none
  | .refused error => some { s.goto i call (.removing error) with closed := true }
  | .waiting =>
    match call.channel with
    | result :: channel => s.goto i { call with channel } (.returned result)
    | [] =>
      if s.connected i then none
      else
        s.goto i call (.removing (s.unavailable
          s!"MCP response channel closed while waiting for '{request.method}'"))
  | .removing error => do
    let id ← call.id
    some { s.goto i call (.returned (.error error)) with pending := removePending s.pending id }
  | .returned _ => none

/-- `write` takes a part of what is left; the lock is released with the last part. -/
def write (s : Client F) (i count : ℕ) (call : Call F) : Option (Client F) :=
  match call.point with
  | .writing rest =>
    if s.broken ∨ count = 0 ∨ s.room < count ∨ rest.length < count then none
    else if rest.length = count then
      some { s.goto i call .waiting with room := s.room - count, holder := none }
    else
      some { s.goto i call (.writing (rest.drop count)) with room := s.room - count }
  | _ => none

def failWrite (s : Client F) (i : ℕ) (reason : String) (call : Call F) : Option (Client F) :=
  match call.point with
  | .writing _ =>
    if s.broken then
      some { s.goto i call (.refused (s.unavailable
        s!"failed to write MCP request '{call.request.method}': {reason}")) with holder := none }
    else none
  | _ => none

def expire (s : Client F) (i : ℕ) (call : Call F) : Option (Client F) :=
  match call.point, call.channel with
  | .waiting, [] =>
    if s.connected i then s.goto i call (.removing call.request.timedOut) else none
  | _, _ => none

/-- The next step of the reader that does not wait for the server. -/
def read (s : Client F) : Option (Client F) :=
  match s.reader with
  | .reading payload buffer =>
    if buffer = [] then none
    else match scan payload buffer with
      | .more payload => some { s with reader := .reading payload [] }
      | .failed error => some { s with reader := .failing error }
      | .frame payload rest =>
        match parseResponse payload with
        | .ok (some (id, result)) => some { s with reader := .delivering id result rest }
        | .ok none => some { s with reader := .reading [] rest }
        | .error error => some { s with reader := .failing error }
  | .delivering id result buffer =>
    match s.pending.lookup id with
    | some i =>
      some { s with
        reader := .reading [] buffer
        pending := removePending s.pending id
        calls := send s.calls i result }
    | none => some { s with reader := .reading [] buffer }
  | .failing error => some { s with reader := .draining error, closed := true }
  | .draining error =>
    some { s with reader := .sending error (s.pending.map Prod.snd), pending := [] }
  | .sending error (i :: senders) =>
    some { s with reader := .sending error senders, calls := send s.calls i (.error error) }
  | .sending _ [] => some { s with reader := .stopped }
  | .stopped => none

/-- `fill_buf` returns to a reader that has used up its buffer. -/
def fill (s : Client F) (next : List UInt8 → Reader F) : Option (Client F) :=
  match s.reader with
  | .reading payload [] => some { s with reader := next payload }
  | _ => none

def step (s : Client F) : Event F → Option (Client F)
  | .call request =>
    if s.dropped then none
    else some { s with calls := s.calls ++ [⟨request, .called, none, []⟩] }
  | .act i => s.calls[i]?.bind (s.advance i)
  | .wrote i count => s.calls[i]?.bind (s.write i count)
  | .writeFailed i reason => s.calls[i]?.bind (s.failWrite i reason)
  | .timeout i => s.calls[i]?.bind (s.expire i)
  | .receive chunk => if chunk = [] then none else s.fill fun payload => .reading payload chunk
  | .eof =>
    s.fill fun payload =>
      if payload = [] then .failing ⟨.io, "MCP server closed stdout", true⟩
      else .failing ⟨.protocol, "MCP stream ended before the frame newline", false⟩
  | .readError reason =>
    s.fill fun _ => .failing ⟨.io, s!"failed to read MCP newline-delimited frame: {reason}", true⟩
  | .reader => s.read
  | .serverReads count => some { s with room := s.room + count }
  | .serverCloses => some { s with broken := true }
  | .stderr tail => some { s with stderrTail := tail }
  | .drop =>
    -- The last reference to the connection is gone, so no thread is in a call.
    if s.dropped ∨ s.calls.any fun call => !(call.point matches .returned _) then none
    else some { s with closed := true, broken := true, dropped := true, pending := [] }

/-- A connection to a server that has just been spawned; the pipe has some capacity. -/
def connect (capacity : ℕ) : Client F where
  nextId := 1
  closed := false
  pending := []
  calls := []
  holder := none
  room := capacity
  broken := false
  reader := .reading [] []
  stderrTail := ""
  dropped := false

end Client

end ScxAgent.Mcp
