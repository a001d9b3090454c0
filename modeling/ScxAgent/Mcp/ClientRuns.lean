import ScxAgent.FairRuns
import ScxAgent.Mcp.Client

/-!
# Runs of the MCP client

What every step of a thread or of the reader keeps: an entry of the table belongs to the call with
that id, which has not returned and whose channel is empty; what is in a channel is a response that
carries the id of the call or an error of the connection; and once the reader has drained the table,
only calls that will find the connection closed have entries in it.
-/

namespace ScxAgent.Mcp

open FairRuns List Option

variable {F : Type} [JsonBytes F]

/-- The steps of a thread. -/
def own (i : ℕ) : Event F → Prop
  | .act j | .wrote j _ | .writeFailed j _ | .timeout j => j = i
  | _ => False

namespace Client

/-- The frame that a step takes from the stream. -/
def frameRead (s : Client F) : Event F → List (List UInt8)
  | .reader =>
    match s.reader with
    | .reading payload buffer =>
      match scan payload buffer with
      | .frame payload _ => [payload]
      | _ => []
    | _ => []
  | _ => []

end Client

namespace Point

/-- The sender has not been entered into the table yet. -/
def Early : Point F → Prop
  | .called | .opened | .numbered => True
  | _ => False

/-- The sender has been entered and the call has not returned. -/
def Entered : Point F → Prop
  | .inserted _ | .dispatching _ | .writing _ | .refused _ | .waiting | .removing _ => True
  | _ => False

/-- The call is on its way to the look at `closed` or to the removal of its sender. -/
def Leaving : Point F → Prop
  | .inserted _ | .removing _ => True
  | _ => False

/-- The error that the call will return. -/
def Fails (error : McpAdapterError) : Point F → Prop
  | .refused e | .removing e => e = error
  | _ => False

end Point

/-! ## What a thread does -/

/-- The steps of the call `i`, which is `call` before the step. -/
inductive Moves (s : Client F) (i : ℕ) (call : Call F) : Client F → Prop where
  | refuse {error : McpAdapterError} : call.point.Early → error.kind ≠ .rpc →
    Moves s i call (s.goto i call (.returned (.error error)))
  | opens : call.point = .called → s.closed = false → Moves s i call (s.goto i call .opened)
  | number : call.point = .opened →
    Moves s i call { s.goto i { call with id := some s.nextId } .numbered with
      nextId := (s.nextId + 1) % 2 ^ 64 }
  | enter {id : ℕ} {payload : List UInt8} : call.point = .numbered → call.id = some id →
    call.request.encode id = .ok payload →
    Moves s i call { s.goto i call (.inserted payload) with
      pending := Client.insertPending s.pending id i }
  | leave {payload : List UInt8} {error : McpAdapterError} : call.point = .inserted payload →
    s.closed = true → error.kind ≠ .rpc → Moves s i call (s.goto i call (.removing error))
  | dispatch {payload : List UInt8} : call.point = .inserted payload → s.closed = false →
    Moves s i call (s.goto i call (.dispatching payload))
  | lock {payload : List UInt8} : call.point = .dispatching payload → s.holder = none →
    Moves s i call { s.goto i call (.writing (payload ++ [newline])) with holder := some i }
  | unwritable {payload : List UInt8} {error : McpAdapterError} :
    call.point = .dispatching payload → error.kind ≠ .rpc →
    Moves s i call (s.goto i call (.refused error))
  | writePart {rest : List UInt8} {count : ℕ} : call.point = .writing rest → 0 < count →
    count < rest.length →
    Moves s i call { s.goto i call (.writing (rest.drop count)) with room := s.room - count }
  | written {rest : List UInt8} : call.point = .writing rest →
    Moves s i call { s.goto i call .waiting with room := s.room - rest.length, holder := none }
  | writeFailed {rest : List UInt8} {error : McpAdapterError} : call.point = .writing rest →
    error.kind ≠ .rpc → Moves s i call { s.goto i call (.refused error) with holder := none }
  | close {error : McpAdapterError} : call.point = .refused error →
    Moves s i call { s.goto i call (.removing error) with closed := true }
  | answer {result : PendingResponse F} {channel : List (PendingResponse F)} :
    call.point = .waiting → call.channel = result :: channel →
    Moves s i call (s.goto i { call with channel } (.returned result))
  | giveUp {error : McpAdapterError} : call.point = .waiting → call.channel = [] →
    error.kind ≠ .rpc → Moves s i call (s.goto i call (.removing error))
  | remove {error : McpAdapterError} {id : ℕ} : call.point = .removing error → call.id = some id →
    Moves s i call { s.goto i call (.returned (.error error)) with
      pending := Client.removePending s.pending id }

namespace Client

variable {s' s : Client F} {call : Call F} {i : ℕ}

theorem moves_of_advance (h : s.advance i call = some s') : Moves s i call s' := by
  unfold advance at h
  cases hpoint : call.point with
  | called =>
    simp only [hpoint] at h
    split at h
    · cases h
      exact .refuse (by rw [hpoint]; trivial) nofun
    · rename_i hclosed
      split at h
      · cases h
        exact .refuse (by rw [hpoint]; trivial) nofun
      · cases h
        exact .opens hpoint (Bool.eq_false_iff.mpr hclosed)
  | opened =>
    simp only [hpoint] at h
    cases h
    exact .number hpoint
  | numbered =>
    simp only [hpoint] at h
    cases hid : call.id with
    | none => simp [hid] at h
    | some id =>
      simp only [hid, bind_eq_bind, bind_some] at h
      split at h
      · cases h
        exact .refuse (by rw [hpoint]; trivial) nofun
      · rename_i payload hencode
        split at h
        · cases h
          exact .refuse (by rw [hpoint]; trivial) nofun
        · cases h
          exact .enter hpoint hid hencode
  | inserted payload =>
    simp only [hpoint] at h
    split at h
    · rename_i hclosed
      cases h
      exact .leave hpoint hclosed nofun
    · rename_i hclosed
      cases h
      exact .dispatch hpoint (Bool.eq_false_iff.mpr hclosed)
  | dispatching payload =>
    simp only [hpoint] at h
    split at h
    · cases h
    · rename_i hfree
      split at h
      · cases h
        exact .lock hpoint (not_isSome_iff_eq_none.mp hfree)
      · cases h
        exact .unwritable hpoint nofun
  | writing rest => simp [hpoint] at h
  | refused error =>
    simp only [hpoint] at h
    cases h
    exact .close hpoint
  | waiting =>
    simp only [hpoint] at h
    split at h
    · rename_i result channel hchannel
      cases h
      exact .answer hpoint hchannel
    · rename_i hchannel
      split at h
      · cases h
      · cases h
        exact .giveUp hpoint hchannel nofun
  | removing error =>
    simp only [hpoint] at h
    cases hid : call.id with
    | none => simp [hid] at h
    | some id =>
      simp only [hid, bind_eq_bind, bind_some] at h
      cases h
      exact .remove hpoint hid
  | returned result => simp [hpoint] at h

theorem moves_of_write {count : ℕ} (h : s.write i count call = some s') : Moves s i call s' := by
  unfold write at h
  split at h
  · rename_i rest hpoint
    split at h
    · cases h
    · rename_i hroom
      rw [not_or, not_or, not_or] at hroom
      split at h
      · rename_i hlength
        cases h
        rw [← hlength]
        exact .written hpoint
      · cases h
        exact .writePart hpoint (by omega) (by omega)
  · cases h

theorem moves_of_failWrite {reason : String} (h : s.failWrite i reason call = some s') :
    Moves s i call s' := by
  unfold failWrite at h
  split at h
  · rename_i rest hpoint
    split at h
    · cases h
      exact .writeFailed hpoint nofun
    · cases h
  · cases h

theorem moves_of_expire (h : s.expire i call = some s') : Moves s i call s' := by
  unfold expire at h
  split at h
  · rename_i hpoint hchannel
    split at h
    · cases h
      exact .giveUp hpoint hchannel nofun
    · cases h
  · cases h

theorem moves_of_step {event : Event F} (hown : own i event) (h : s.step event = some s') :
    ∃ call, s.calls[i]? = some call ∧ Moves s i call s' := by
  cases event with
  | act j =>
    obtain rfl : j = i := hown
    obtain ⟨call, hcall, h⟩ := bind_eq_some_iff.mp h
    exact ⟨call, hcall, moves_of_advance h⟩
  | wrote j count =>
    obtain rfl : j = i := hown
    obtain ⟨call, hcall, h⟩ := bind_eq_some_iff.mp h
    exact ⟨call, hcall, moves_of_write h⟩
  | writeFailed j reason =>
    obtain rfl : j = i := hown
    obtain ⟨call, hcall, h⟩ := bind_eq_some_iff.mp h
    exact ⟨call, hcall, moves_of_failWrite h⟩
  | timeout j =>
    obtain rfl : j = i := hown
    obtain ⟨call, hcall, h⟩ := bind_eq_some_iff.mp h
    exact ⟨call, hcall, moves_of_expire h⟩
  | _ => exact hown.elim

end Client

/-! ## What the reader and the server do -/

/-- The steps that no thread owns, with the frame that the step takes from the stream. -/
inductive Serves (s : Client F) : List (List UInt8) → Client F → Prop where
  | call (request : Request F) :
    Serves s [] { s with calls := s.calls ++ [⟨request, .called, none, []⟩] }
  | read {payload buffer payload' buffer' : List UInt8} {frames : List (List UInt8)} :
    s.reader = .reading payload buffer → Serves s frames { s with reader := .reading payload' buffer' }
  | take {payload buffer frame rest : List UInt8} {id : ℕ} {result : PendingResponse F} :
    s.reader = .reading payload buffer → parseResponse frame = .ok (some (id, result)) →
    Serves s [frame] { s with reader := .delivering id result rest }
  | breaks {payload buffer : List UInt8} {error : McpAdapterError} {frames : List (List UInt8)} :
    s.reader = .reading payload buffer → error.kind ≠ .rpc →
    Serves s frames { s with reader := .failing error }
  | deliver {id i : ℕ} {result : PendingResponse F} {buffer : List UInt8} :
    s.reader = .delivering id result buffer → s.pending.lookup id = some i →
    Serves s [] { s with
      reader := .reading [] buffer
      pending := Client.removePending s.pending id
      calls := Client.send s.calls i result }
  | discard {id : ℕ} {result : PendingResponse F} {buffer : List UInt8} :
    s.reader = .delivering id result buffer → s.pending.lookup id = none →
    Serves s [] { s with reader := .reading [] buffer }
  | close {error : McpAdapterError} : s.reader = .failing error →
    Serves s [] { s with reader := .draining error, closed := true }
  | drain {error : McpAdapterError} : s.reader = .draining error →
    Serves s [] { s with reader := .sending error (s.pending.map Prod.snd), pending := [] }
  | send {error : McpAdapterError} {i : ℕ} {senders : List ℕ} :
    s.reader = .sending error (i :: senders) →
    Serves s [] { s with
      reader := .sending error senders, calls := Client.send s.calls i (.error error) }
  | stop {error : McpAdapterError} : s.reader = .sending error [] →
    Serves s [] { s with reader := .stopped }
  | outside (room : ℕ) (broken : Bool) (stderrTail : String) :
    Serves s [] { s with room, broken, stderrTail }
  | drop : (∀ call ∈ s.calls, ∃ result, call.point = .returned result) →
    Serves s [] { s with closed := true, broken := true, dropped := true, pending := [] }

variable {error : McpAdapterError} {value : JsonTree F}

omit [JsonBytes F] in
theorem kind_of_parseError (h : parseError value = .error error) : error.kind ≠ .rpc := by
  unfold parseError at h
  repeat' split at h
  all_goals cases h
  all_goals exact nofun

omit [JsonBytes F] in
theorem kind_of_parseMessage (h : parseMessage value = .error error) : error.kind ≠ .rpc := by
  unfold parseMessage at h
  repeat' split at h
  all_goals cases h
  all_goals first
    | exact kind_of_parseError (by assumption)
    | exact nofun

theorem kind_of_parseResponse {payload : List UInt8}
    (h : parseResponse (F := F) payload = .error error) : error.kind ≠ .rpc := by
  unfold parseResponse at h
  split at h
  · cases h
    exact nofun
  · exact kind_of_parseMessage h

theorem kind_of_scan {payload available : List UInt8} (h : scan payload available = .failed error) :
    error.kind ≠ .rpc := by
  unfold scan at h
  dsimp only at h
  repeat' split at h
  all_goals cases h
  all_goals exact nofun

namespace Client

variable {s' s : Client F}

theorem serves_of_read (h : s.read = some s') : Serves s (s.frameRead .reader) s' := by
  unfold read at h
  cases hreader : s.reader with
  | reading payload buffer =>
    simp only [hreader, frameRead] at h ⊢
    split at h
    · cases h
    · cases hscan : scan payload buffer with
      | more payload' =>
        simp only [hscan] at h
        cases h
        exact .read hreader
      | failed error =>
        simp only [hscan] at h
        cases h
        exact .breaks hreader (kind_of_scan hscan)
      | frame frame rest =>
        simp only [hscan] at h
        split at h
        · rename_i id result hparse
          cases h
          exact .take hreader hparse
        · cases h
          exact .read hreader
        · rename_i error hparse
          cases h
          exact .breaks hreader (kind_of_parseResponse hparse)
  | delivering id result buffer =>
    simp only [hreader, frameRead] at h ⊢
    split at h
    · rename_i i hlookup
      cases h
      exact .deliver hreader hlookup
    · rename_i hlookup
      cases h
      exact .discard hreader hlookup
  | failing error =>
    simp only [hreader, frameRead] at h ⊢
    cases h
    exact .close hreader
  | draining error =>
    simp only [hreader, frameRead] at h ⊢
    cases h
    exact .drain hreader
  | sending error senders =>
    cases senders with
    | nil =>
      simp only [hreader, frameRead] at h ⊢
      cases h
      exact .stop hreader
    | cons i senders =>
      simp only [hreader, frameRead] at h ⊢
      cases h
      exact .send hreader
  | stopped => simp [hreader] at h

omit [JsonBytes F] in
theorem fill_eq_some {next : List UInt8 → Reader F} (h : s.fill next = some s') :
    ∃ payload, s.reader = .reading payload [] ∧ s' = { s with reader := next payload } := by
  unfold fill at h
  split at h
  · rename_i payload hreader
    cases h
    exact ⟨payload, hreader, rfl⟩
  · cases h

/-- Every step is one of a thread or one of the others. -/
theorem step_cases {event : Event F} (h : s.step event = some s') :
    (∃ i call, own i event ∧ s.frameRead event = [] ∧ s.calls[i]? = some call ∧ Moves s i call s') ∨
      Serves s (s.frameRead event) s' := by
  have howned : ∀ i, own i event → s.frameRead event = [] →
      ∃ i call, own i event ∧ s.frameRead event = [] ∧ s.calls[i]? = some call ∧ Moves s i call s' := by
    intro i hown hframe
    obtain ⟨call, hcall, hmoves⟩ := moves_of_step hown h
    exact ⟨i, call, hown, hframe, hcall, hmoves⟩
  cases event with
  | act i | wrote i _ | writeFailed i _ | timeout i => exact .inl (howned i rfl rfl)
  | call request =>
    simp only [step] at h
    split at h
    · cases h
    · cases h
      exact .inr (.call request)
  | receive chunk =>
    simp only [step] at h
    split at h
    · cases h
    · obtain ⟨payload, hreader, rfl⟩ := fill_eq_some h
      exact .inr (.read hreader)
  | eof =>
    obtain ⟨payload, hreader, rfl⟩ := fill_eq_some h
    split
    · exact .inr (.breaks hreader nofun)
    · exact .inr (.breaks hreader nofun)
  | readError reason =>
    obtain ⟨payload, hreader, rfl⟩ := fill_eq_some h
    exact .inr (.breaks hreader nofun)
  | reader => exact .inr (serves_of_read h)
  | serverReads count =>
    cases h
    exact .inr (.outside _ _ _)
  | serverCloses =>
    cases h
    exact .inr (.outside _ _ _)
  | stderr tail =>
    cases h
    exact .inr (.outside _ _ _)
  | drop =>
    simp only [step] at h
    split at h
    · cases h
    · rename_i hidle
      rw [not_or, Bool.not_eq_true, Bool.not_eq_true, List.any_eq_false] at hidle
      cases h
      refine .inr (.drop fun call hcall => ?_)
      have hreturned := hidle.2 call hcall
      cases hpoint : call.point with
      | returned result => exact ⟨result, rfl⟩
      | _ => simp [hpoint] at hreturned

end Client

/-! ## The invariant -/

/-- A result is an error of the connection, or comes from a frame that carries the id. -/
def Origin (frames : List (List UInt8)) (id : Option ℕ) (result : PendingResponse F) : Prop :=
  (∃ error, result = .error error ∧ error.kind ≠ .rpc) ∨
    ∃ frame ∈ frames, ∃ n, id = some n ∧ parseResponse frame = .ok (some (n, result))

variable {result : PendingResponse F} {frames : List (List UInt8)}

theorem Origin.mono {more : List (List UInt8)} {id : Option ℕ} (h : Origin frames id result) :
    Origin (frames ++ more) id result := by
  rcases h with herror | ⟨frame, hframe, hcarries⟩
  · exact .inl herror
  · exact .inr ⟨frame, mem_append_left _ hframe, hcarries⟩

structure Call.Sound (frames : List (List UInt8)) (call : Call F) : Prop where
  fresh : call.point.Early → call.channel = []
  numbered : call.point = .numbered ∨ call.point.Entered → call.id.isSome
  fails : ∀ error, call.point.Fails error → error.kind ≠ .rpc
  writes : ∀ rest, call.point = .writing rest → rest ≠ []
  channel : ∀ result ∈ call.channel, Origin frames call.id result
  returned : ∀ result, call.point = .returned result → Origin frames call.id result

theorem Call.Sound.mono {frames more : List (List UInt8)} {call : Call F} (h : call.Sound frames) :
    call.Sound (frames ++ more) :=
  { h with
    channel := fun result hresult => (h.channel result hresult).mono
    returned := fun result hresult => (h.returned result hresult).mono }

/-- The call waits for a response with the id. -/
def Call.Awaits (id : ℕ) (call : Call F) : Prop :=
  call.id = some id ∧ call.point.Entered ∧ call.channel = []

namespace Reader

def Fails (error : McpAdapterError) : Reader F → Prop
  | .failing e | .draining e | .sending e _ => e = error
  | _ => False

def Closing : Reader F → Prop
  | .draining _ | .sending _ _ | .stopped => True
  | _ => False

def Drained : Reader F → Prop
  | .sending _ _ | .stopped => True
  | _ => False

end Reader

/-- The call is about to give its entry up. -/
def Call.Leaves (id : ℕ) (call : Call F) : Prop := call.Awaits id ∧ call.point.Leaving

/-- Every entry of the table belongs to a call of which `Q` holds with the id. -/
def Entries (Q : ℕ → Call F → Prop) (pending : List (ℕ × ℕ)) (calls : List (Call F)) : Prop :=
  ∀ id i, (id, i) ∈ pending → ∃ call, calls[i]? = some call ∧ Q id call

/-- The call that holds the lock is the one that writes. -/
def Locks (holder : Option ℕ) (calls : List (Call F)) : Prop :=
  ∀ i, holder = some i ↔ ∃ call rest, calls[i]? = some call ∧ call.point = .writing rest

structure Sound (frames : List (List UInt8)) (s : Client F) : Prop where
  calls : ∀ (i : ℕ) call, s.calls[i]? = some call → call.Sound frames
  entries : Entries Call.Awaits s.pending s.calls
  senders : ∀ error senders, s.reader = .sending error senders → ∀ i ∈ senders,
    ∃ call, s.calls[i]? = some call ∧ ¬ call.point.Early ∧ ∀ id, (id, i) ∉ s.pending
  delivering : ∀ id result buffer, s.reader = .delivering id result buffer →
    ∃ frame ∈ frames, parseResponse frame = .ok (some (id, result))
  fails : ∀ error, s.reader.Fails error → error.kind ≠ .rpc
  closed : s.reader.Closing → s.closed = true
  drained : s.reader.Drained → Entries Call.Leaves s.pending s.calls
  holder : Locks s.holder s.calls

theorem connect_sound (capacity : ℕ) : Sound [] (Client.connect capacity : Client F) where
  calls := nofun
  entries := nofun
  senders := nofun
  delivering := nofun
  fails := nofun
  closed := nofun
  drained := nofun
  holder _ := ⟨nofun, nofun⟩

variable {calls : List (Call F)} {i id : ℕ} {call call' : Call F} {pending : List (ℕ × ℕ)}
  {Q : ℕ → Call F → Prop} {pending' : List (ℕ × ℕ)}

section

omit [JsonBytes F]

theorem get_set (h : calls[i]? = some call) (call' : Call F) (j : ℕ) :
    (calls.set i call')[j]? = if j = i then some call' else calls[j]? := by
  have hlt : i < calls.length := (List.getElem?_eq_some_iff.mp h).1
  rw [List.getElem?_set]
  by_cases hj : i = j
  · rw [if_pos hj, if_pos hj.symm, if_pos (hj ▸ hlt)]
  · rw [if_neg hj, if_neg (Ne.symm hj)]

theorem mem_removePending {id' : ℕ} :
    (id', i) ∈ Client.removePending pending id ↔ (id', i) ∈ pending ∧ id' ≠ id := by
  simp [Client.removePending]

theorem mem_insertPending {id' j : ℕ} :
    (id', j) ∈ Client.insertPending pending id i ↔
      (id' = id ∧ j = i) ∨ ((id', j) ∈ pending ∧ id' ≠ id) := by
  rw [Client.insertPending, mem_cons, Prod.mk.injEq, mem_removePending]

theorem Point.Entered.not_early {point : Point F} (h : point.Entered) : ¬ point.Early := by
  cases point <;> first | exact h.elim | exact id

theorem Entries.set (h : Entries Q pending calls) (hcall : calls[i]? = some call)
    (hsub : ∀ entry ∈ pending', entry ∈ pending)
    (hkeep : ∀ id, (id, i) ∈ pending' → Q id call → Q id call') :
    Entries Q pending' (calls.set i call') := by
  intro id j hentry
  obtain ⟨found, hfound, hQ⟩ := h id j (hsub _ hentry)
  rw [get_set hcall]
  by_cases hj : j = i
  · subst hj
    rw [hcall, some.injEq] at hfound
    subst hfound
    exact ⟨call', if_pos rfl, hkeep id hentry hQ⟩
  · exact ⟨found, by rw [if_neg hj, hfound], hQ⟩

/-- A call that is not in the table is entered. -/
theorem Entries.insert {n : ℕ} (h : Entries Q pending calls) (hcall : calls[i]? = some call)
    (hnew : Q n call') (hnone : ∀ id, ¬ Q id call) :
    Entries Q (Client.insertPending pending n i) (calls.set i call') := by
  intro id j hentry
  rcases mem_insertPending.mp hentry with ⟨rfl, rfl⟩ | ⟨hold, -⟩
  · exact ⟨call', by rw [get_set hcall, if_pos rfl], hnew⟩
  · exact h.set hcall (fun _ h => h) (fun id _ hQ => absurd hQ (hnone id)) id j hold

end

namespace Moves

variable {s s' : Client F} {i : ℕ} {call : Call F} {frames : List (List UInt8)}

section Step

variable (h : Moves s i call s')
include h

/-- A step changes no other call and leaves the reader alone. -/
theorem calls_eq (hsound : call.Sound frames) :
    ∃ call', s'.calls = s.calls.set i call' ∧ s'.reader = s.reader ∧ call'.Sound frames ∧
      (call'.point.Early → call.point.Early) := by
  have hlocal : ∀ error : McpAdapterError, error.kind ≠ .rpc →
      Origin frames call.id (.error error : PendingResponse F) := fun error hkind =>
    .inl ⟨error, rfl, hkind⟩
  cases h with
  | @refuse error hearly hkind =>
    refine ⟨_, rfl, rfl, ⟨nofun, nofun, nofun, nofun, hsound.channel, ?_⟩, nofun⟩
    rintro result ⟨⟩
    exact hlocal error hkind
  | opens hpoint =>
    have hearly : call.point.Early := by rw [hpoint]; trivial
    exact ⟨_, rfl, rfl, ⟨fun _ => hsound.fresh hearly, nofun, nofun, nofun, hsound.channel, nofun⟩,
      fun _ => hearly⟩
  | number hpoint =>
    have hearly : call.point.Early := by rw [hpoint]; trivial
    have hempty := hsound.fresh hearly
    refine ⟨_, rfl, rfl, ⟨fun _ => hempty, fun _ => rfl, nofun, nofun, ?_, nofun⟩, fun _ => hearly⟩
    intro result hresult
    rw [hempty] at hresult
    cases hresult
  | enter hpoint hid =>
    refine ⟨_, rfl, rfl, ⟨nofun, fun _ => ?_, nofun, nofun, hsound.channel, nofun⟩, nofun⟩
    rw [hid]
    rfl
  | leave hpoint _ hkind | giveUp hpoint _ hkind | writeFailed hpoint hkind
  | unwritable hpoint hkind =>
    refine ⟨_, rfl, rfl, ⟨nofun, fun _ => hsound.numbered (.inr ?_), ?_, nofun, hsound.channel,
      nofun⟩, nofun⟩
    · rw [hpoint]
      trivial
    · rintro error ⟨⟩
      exact hkind
  | dispatch hpoint | written hpoint =>
    refine ⟨_, rfl, rfl, ⟨nofun, fun _ => hsound.numbered (.inr ?_), nofun, nofun, hsound.channel,
      nofun⟩, nofun⟩
    rw [hpoint]
    trivial
  | lock hpoint =>
    refine ⟨_, rfl, rfl, ⟨nofun, fun _ => hsound.numbered (.inr ?_), nofun, ?_, hsound.channel,
      nofun⟩, nofun⟩
    · rw [hpoint]
      trivial
    · rintro rest ⟨⟩
      simp
  | writePart hpoint _ hlength =>
    refine ⟨_, rfl, rfl, ⟨nofun, fun _ => hsound.numbered (.inr ?_), nofun, ?_, hsound.channel,
      nofun⟩, nofun⟩
    · rw [hpoint]
      trivial
    · rintro rest ⟨⟩
      rw [Ne, drop_eq_nil_iff]
      omega
  | close hpoint =>
    refine ⟨_, rfl, rfl, ⟨nofun, fun _ => hsound.numbered (.inr ?_), ?_, nofun, hsound.channel,
      nofun⟩, nofun⟩
    · rw [hpoint]
      trivial
    · rintro error ⟨⟩
      exact hsound.fails _ (by rw [hpoint]; rfl)
  | @answer result channel hpoint hchannel =>
    have hall := hsound.channel
    rw [hchannel] at hall
    refine ⟨_, rfl, rfl, ⟨nofun, nofun, nofun, nofun, fun r hr => hall r (mem_cons_of_mem _ hr),
      ?_⟩, nofun⟩
    rintro r ⟨⟩
    exact hall result mem_cons_self
  | @remove error id hpoint hid =>
    refine ⟨_, rfl, rfl, ⟨nofun, nofun, nofun, nofun, hsound.channel, ?_⟩, nofun⟩
    rintro r ⟨⟩
    exact hlocal error (hsound.fails _ (by rw [hpoint]; rfl))

theorem entries (hcall : s.calls[i]? = some call) (hsound : call.Sound frames)
    (hentries : Entries Call.Awaits s.pending s.calls) :
    Entries Call.Awaits s'.pending s'.calls := by
  have hearly : call.point.Early → ∀ id, ¬ call.Awaits id := fun hearly id hawaits =>
    hawaits.2.1.not_early hearly
  cases h with
  | refuse hpoint =>
    exact hentries.set hcall (fun _ h => h) fun id _ hawaits => absurd hawaits (hearly hpoint id)
  | opens hpoint | number hpoint =>
    exact hentries.set hcall (fun _ h => h) fun id _ hawaits =>
      absurd hawaits (hearly (by rw [hpoint]; trivial) id)
  | enter hpoint hid =>
    have hpoint : call.point.Early := by rw [hpoint]; trivial
    exact hentries.insert hcall ⟨hid, trivial, hsound.fresh hpoint⟩ (hearly hpoint)
  | leave | dispatch | lock | unwritable | writePart | written | writeFailed | close | giveUp =>
    exact hentries.set hcall (fun _ h => h) fun id _ hawaits => ⟨hawaits.1, trivial, hawaits.2.2⟩
  | answer hpoint hchannel =>
    refine hentries.set hcall (fun _ h => h) fun id _ hawaits => ?_
    have := hchannel.symm.trans hawaits.2.2
    cases this
  | remove hpoint hid =>
    refine hentries.set hcall (fun entry hentry => (mem_removePending.mp hentry).1)
      fun id hentry hawaits => ?_
    have hsame := some.inj (hid.symm.trans hawaits.1)
    exact absurd hsame.symm (mem_removePending.mp hentry).2

/-- Only the call itself is entered, and only once. -/
theorem pending_sub {id j : ℕ} (hentry : (id, j) ∈ s'.pending) :
    (id, j) ∈ s.pending ∨ (j = i ∧ call.point.Early) := by
  cases h with
  | enter hpoint =>
    rcases mem_insertPending.mp hentry with ⟨-, rfl⟩ | ⟨hold, -⟩
    · exact .inr ⟨rfl, by rw [hpoint]; trivial⟩
    · exact .inl hold
  | remove => exact .inl (mem_removePending.mp hentry).1
  | _ => exact .inl hentry

theorem closed_le (hclosed : s.closed = true) : s'.closed = true := by
  cases h with
  | close => rfl
  | _ => exact hclosed

theorem drained (hcall : s.calls[i]? = some call) (hsound : call.Sound frames)
    (hclosed : s.closed = true) (hdrained : Entries Call.Leaves s.pending s.calls) :
    Entries Call.Leaves s'.pending s'.calls := by
  have hpointed : ∀ id, call.Leaves id → ∀ point, call.point = point → point.Leaving :=
    fun id hleaves point hpoint => hpoint ▸ hleaves.2
  cases h with
  | refuse hearly =>
    exact hdrained.set hcall (fun _ h => h) fun id _ hleaves =>
      absurd hearly hleaves.1.2.1.not_early
  | enter hpoint hid =>
    have hearly : call.point.Early := by rw [hpoint]; trivial
    exact hdrained.insert hcall ⟨⟨hid, trivial, hsound.fresh hearly⟩, trivial⟩
      fun id hleaves => hleaves.1.2.1.not_early hearly
  | leave =>
    exact hdrained.set hcall (fun _ h => h) fun id _ hleaves =>
      ⟨⟨hleaves.1.1, trivial, hleaves.1.2.2⟩, trivial⟩
  | opens _ hopen | dispatch _ hopen =>
    rw [hclosed] at hopen
    cases hopen
  | number hpoint | lock hpoint | unwritable hpoint | writePart hpoint | written hpoint
  | writeFailed hpoint | close hpoint | giveUp hpoint | answer hpoint =>
    exact hdrained.set hcall (fun _ h => h) fun id _ hleaves =>
      (hpointed id hleaves _ hpoint).elim
  | remove hpoint hid =>
    refine hdrained.set hcall (fun entry hentry => (mem_removePending.mp hentry).1)
      fun id hentry hleaves => ?_
    have hsame := some.inj (hid.symm.trans hleaves.1.1)
    exact absurd hsame.symm (mem_removePending.mp hentry).2

end Step

end Moves

variable {holder : Option ℕ}

omit [JsonBytes F] in
theorem Locks.set {holder' : Option ℕ} (h : Locks holder calls) (hcall : calls[i]? = some call)
    (hown : holder' = some i ↔ ∃ rest, call'.point = .writing rest)
    (hothers : ∀ j, j ≠ i → (holder' = some j ↔ holder = some j)) :
    Locks holder' (calls.set i call') := by
  intro j
  rw [get_set hcall]
  by_cases hj : j = i
  · subst hj
    simp [hown]
  · rw [if_neg hj, hothers j hj]
    exact h j

variable {s' s : Client F}

theorem Moves.locks (h : Moves s i call s') (hcall : s.calls[i]? = some call)
    (hlocks : Locks s.holder s.calls) : Locks s'.holder s'.calls := by
  have hidle : (∀ rest, call.point ≠ .writing rest) → s.holder ≠ some i := by
    rintro hpoint hholder
    obtain ⟨found, rest, hfound, hwriting⟩ := (hlocks i).mp hholder
    rw [hcall, some.injEq] at hfound
    exact hpoint rest (hfound ▸ hwriting)
  have hwrites : ∀ rest, call.point = .writing rest → s.holder = some i := fun rest hpoint =>
    (hlocks i).mpr ⟨call, rest, hcall, hpoint⟩
  cases h with
  | refuse hearly =>
    refine hlocks.set hcall ⟨fun hholder => absurd hholder (hidle ?_), nofun⟩ fun j _ => Iff.rfl
    intro rest hpoint
    rw [hpoint] at hearly
    exact hearly
  | opens hpoint | number hpoint | enter hpoint | leave hpoint | dispatch hpoint | unwritable hpoint
  | close hpoint | answer hpoint | giveUp hpoint | remove hpoint =>
    refine hlocks.set hcall ⟨fun hholder => absurd hholder (hidle ?_), nofun⟩ fun j _ => Iff.rfl
    intro rest hrest
    rw [hpoint] at hrest
    cases hrest
  | lock hpoint hfree =>
    refine hlocks.set hcall ⟨fun _ => ⟨_, rfl⟩, fun _ => rfl⟩ fun j hj => ?_
    rw [hfree]
    simp [Ne.symm hj]
  | writePart hpoint =>
    exact hlocks.set hcall ⟨fun _ => ⟨_, rfl⟩, fun _ => hwrites _ hpoint⟩ fun j _ => Iff.rfl
  | written hpoint | writeFailed hpoint =>
    refine hlocks.set hcall ⟨nofun, nofun⟩ fun j hj => ?_
    rw [hwrites _ hpoint]
    simp [Ne.symm hj]

theorem Moves.sound (h : Moves s i call s') (hcall : s.calls[i]? = some call)
    (hsound : Sound frames s) : Sound frames s' := by
  have hlocal := hsound.calls i call hcall
  obtain ⟨call', hcalls, hreader, hlocal', hearly⟩ := h.calls_eq hlocal
  constructor
  · intro j found hfound
    rw [hcalls, get_set hcall] at hfound
    split at hfound
    · exact some.inj hfound ▸ hlocal'
    · exact hsound.calls j found hfound
  · exact h.entries hcall hlocal hsound.entries
  · intro error senders hsending j hj
    rw [hreader] at hsending
    obtain ⟨found, hfound, hlate, hnone⟩ := hsound.senders error senders hsending j hj
    -- A call whose sender the reader holds is not early, so it is not entered again.
    have hnone' : ∀ id, (id, j) ∉ s'.pending := by
      intro id hentry
      rcases h.pending_sub hentry with hold | ⟨rfl, hpoint⟩
      · exact hnone id hold
      · rw [hcall, some.injEq] at hfound
        exact hlate (hfound ▸ hpoint)
    rw [hcalls, get_set hcall]
    by_cases hji : j = i
    · subst hji
      rw [hcall, some.injEq] at hfound
      subst hfound
      exact ⟨call', if_pos rfl, fun h => hlate (hearly h), hnone'⟩
    · exact ⟨found, by rw [if_neg hji, hfound], hlate, hnone'⟩
  · rw [hreader]
    exact hsound.delivering
  · rw [hreader]
    exact hsound.fails
  · rw [hreader]
    exact fun hclosing => h.closed_le (hsound.closed hclosing)
  · rw [hreader]
    intro hdrained
    have hclosed : s.closed = true := hsound.closed (by
      cases hr : s.reader <;> rw [hr] at hdrained <;> trivial)
    exact h.drained hcall hlocal hclosed (hsound.drained hdrained)
  · exact h.locks hcall hsound.holder

/-! ## Steps of the reader keep the invariant -/

variable {more : List (Call F)}

section

omit [JsonBytes F]

theorem get_send (calls : List (Call F)) (i j : ℕ) (result : PendingResponse F) :
    (Client.send calls i result)[j]? =
      if j = i then calls[j]?.map fun call => { call with channel := call.channel ++ [result] }
      else calls[j]? := by
  rw [Client.send, getElem?_modify]
  by_cases hj : i = j
  · simp [hj]
  · simp [hj, Ne.symm hj]

theorem Entries.mono (h : Entries Q pending calls) (hsub : ∀ entry ∈ pending', entry ∈ pending) :
    Entries Q pending' calls :=
  fun id i hentry => h id i (hsub _ hentry)

theorem get_append (h : calls[i]? = some call) : (calls ++ more)[i]? = some call := by
  rw [List.getElem?_append_left (List.getElem?_eq_some_iff.mp h).1, h]

/-- A new call has not come to the lock. -/
theorem Locks.append (h : Locks holder calls) (hcall : call.point = .called) :
    Locks holder (calls ++ [call]) := by
  intro i
  rw [h i]
  constructor
  · rintro ⟨found, rest, hfound, hwriting⟩
    exact ⟨found, rest, get_append hfound, hwriting⟩
  · rintro ⟨found, rest, hfound, hwriting⟩
    rcases Nat.lt_or_ge i calls.length with hlt | hge
    · rw [getElem?_append_left hlt] at hfound
      exact ⟨found, rest, hfound, hwriting⟩
    · have hmem : found = call := by
        rw [getElem?_append_right hge] at hfound
        exact mem_singleton.mp (mem_of_getElem? hfound)
      rw [hmem, hcall] at hwriting
      cases hwriting

theorem Entries.append (h : Entries Q pending calls) : Entries Q pending (calls ++ more) := by
  intro id i hentry
  obtain ⟨call, hcall, hQ⟩ := h id i hentry
  exact ⟨call, get_append hcall, hQ⟩

/-- Entries of other calls are not concerned by a message. -/
theorem Entries.send (h : Entries Q pending calls) (hnone : ∀ id, (id, i) ∉ pending)
    (result : PendingResponse F) : Entries Q pending (Client.send calls i result) := by
  intro id j hentry
  obtain ⟨call, hcall, hQ⟩ := h id j hentry
  have hj : j ≠ i := by
    rintro rfl
    exact hnone id hentry
  exact ⟨call, by rw [get_send, if_neg hj, hcall], hQ⟩

theorem Locks.send (h : Locks holder calls) (i : ℕ) (result : PendingResponse F) :
    Locks holder (Client.send calls i result) := by
  intro j
  rw [h j, get_send]
  split
  · cases calls[j]? <;> simp
  · rfl

theorem mem_of_lookup (h : pending.lookup id = some i) : (id, i) ∈ pending := by
  induction pending with
  | nil => cases h
  | cons entry pending ih =>
    obtain ⟨id', i'⟩ := entry
    rw [lookup_cons] at h
    split at h
    · rename_i hid
      cases h
      rw [beq_iff_eq.mp hid]
      exact mem_cons_self
    · exact mem_cons_of_mem _ (ih h)

end

/-- A message that comes from a frame with the id of the call keeps the call sound. -/
theorem Call.Sound.send (h : call.Sound frames) (hlate : ¬ call.point.Early)
    (horigin : Origin frames call.id result) :
    Call.Sound frames { call with channel := call.channel ++ [result] } :=
  { h with
    fresh := fun hearly => absurd hearly hlate
    channel := by
      intro r hr
      rcases mem_append.mp hr with hr | hr
      · exact h.channel r hr
      · exact mem_singleton.mp hr ▸ horigin }

theorem Sound.calls_send (h : Sound frames s) (hcall : s.calls[i]? = some call)
    (hlate : ¬ call.point.Early) (horigin : Origin frames call.id result) :
    ∀ (j : ℕ) found, (Client.send s.calls i result)[j]? = some found → found.Sound frames := by
  intro j found hfound
  rw [get_send] at hfound
  split at hfound
  · rename_i hj
    rw [hj, hcall, map_some, some.injEq] at hfound
    rw [← hfound]
    exact (h.calls i call hcall).send hlate horigin
  · exact h.calls j found hfound

theorem Serves.sound {new : List (List UInt8)} (h : Serves s new s') (hsound : Sound frames s) :
    Sound (frames ++ new) s' := by
  have hcalls : ∀ (i : ℕ) call, s.calls[i]? = some call → call.Sound (frames ++ new) :=
    fun i call hcall => (hsound.calls i call hcall).mono
  cases h with
  | call request =>
    rw [append_nil]
    refine ⟨fun i call hcall => ?_, hsound.entries.append, ?_, hsound.delivering, hsound.fails,
      hsound.closed, fun h => (hsound.drained h).append, hsound.holder.append rfl⟩
    · rcases mem_append.mp (mem_of_getElem? hcall) with hold | hnew
      · obtain ⟨j, hj⟩ := mem_iff_getElem?.mp hold
        exact hsound.calls j call hj
      · rw [mem_singleton.mp hnew]
        exact ⟨fun _ => rfl, nofun, nofun, nofun, nofun, nofun⟩
    · intro error senders hreader i hi
      obtain ⟨call, hcall, hrest⟩ := hsound.senders error senders hreader i hi
      exact ⟨call, get_append hcall, hrest⟩
  | read hreader =>
    exact ⟨hcalls, hsound.entries, nofun, nofun, nofun, nofun, nofun, hsound.holder⟩
  | take hreader hparse =>
    refine ⟨hcalls, hsound.entries, nofun, ?_, nofun, nofun, nofun, hsound.holder⟩
    rintro _ _ _ ⟨⟩
    exact ⟨_, mem_append_right _ (mem_singleton.mpr rfl), hparse⟩
  | breaks hreader hkind =>
    refine ⟨hcalls, hsound.entries, nofun, nofun, ?_, nofun, nofun, hsound.holder⟩
    rintro error ⟨⟩
    exact hkind
  | @deliver id i result buffer hreader hlookup =>
    rw [append_nil]
    obtain ⟨call, hcall, hawaits⟩ := hsound.entries id i (mem_of_lookup hlookup)
    obtain ⟨frame, hframe, hparse⟩ := hsound.delivering id result buffer hreader
    have hnone : ∀ id', (id', i) ∉ Client.removePending s.pending id := by
      intro id' hentry
      obtain ⟨hold, hne⟩ := mem_removePending.mp hentry
      obtain ⟨found, hfound, hawaits'⟩ := hsound.entries id' i hold
      rw [hcall, some.injEq] at hfound
      rw [← hfound] at hawaits'
      exact hne (some.inj (hawaits'.1.symm.trans hawaits.1))
    have hentries := hsound.entries.mono fun entry (hentry : entry ∈ Client.removePending s.pending id)
      => (mem_removePending.mp hentry).1
    exact ⟨hsound.calls_send hcall hawaits.2.1.not_early (.inr ⟨frame, hframe, id, hawaits.1, hparse⟩),
      hentries.send hnone result, nofun, nofun, nofun, nofun, nofun, hsound.holder.send i result⟩
  | discard hreader hlookup =>
    exact ⟨hcalls, hsound.entries, nofun, nofun, nofun, nofun, nofun, hsound.holder⟩
  | close hreader =>
    refine ⟨hcalls, hsound.entries, nofun, nofun, ?_, fun _ => rfl, nofun, hsound.holder⟩
    rintro error ⟨⟩
    exact hsound.fails _ (by rw [hreader]; rfl)
  | drain hreader =>
    refine ⟨hcalls, nofun, ?_, nofun, ?_, fun _ => hsound.closed (by rw [hreader]; trivial),
      fun _ => nofun, hsound.holder⟩
    · rintro error senders ⟨⟩ i hi
      obtain ⟨⟨id, j⟩, hentry, rfl⟩ := mem_map.mp hi
      obtain ⟨call, hcall, hawaits⟩ := hsound.entries id j hentry
      exact ⟨call, hcall, hawaits.2.1.not_early, nofun⟩
    · rintro error ⟨⟩
      exact hsound.fails _ (by rw [hreader]; rfl)
  | @send error i senders hreader =>
    rw [append_nil]
    obtain ⟨call, hcall, hlate, hnone⟩ := hsound.senders _ _ hreader i mem_cons_self
    have hkind := hsound.fails error (by rw [hreader]; rfl)
    have hdrained := hsound.drained (by rw [hreader]; trivial)
    refine ⟨hsound.calls_send hcall hlate (.inl ⟨error, rfl, hkind⟩), hsound.entries.send hnone _, ?_,
      nofun, ?_, fun _ => hsound.closed (by rw [hreader]; trivial), fun _ => hdrained.send hnone _,
      hsound.holder.send i _⟩
    · rintro _ _ ⟨⟩ j hj
      obtain ⟨found, hfound, hlate', hnone'⟩ := hsound.senders _ _ hreader j (mem_cons_of_mem _ hj)
      by_cases hji : j = i
      · refine ⟨{ found with channel := found.channel ++ [.error error] }, ?_, hlate', hnone'⟩
        rw [get_send, if_pos hji, hfound, map_some]
      · exact ⟨found, by rw [get_send, if_neg hji, hfound], hlate', hnone'⟩
    · rintro _ ⟨⟩
      exact hkind
  | stop hreader =>
    exact ⟨hcalls, hsound.entries, nofun, nofun, nofun,
      fun _ => hsound.closed (by rw [hreader]; trivial),
      fun _ => hsound.drained (by rw [hreader]; trivial), hsound.holder⟩
  | outside room broken stderrTail =>
    rw [append_nil]
    exact ⟨hsound.calls, hsound.entries, hsound.senders, hsound.delivering, hsound.fails,
      hsound.closed, hsound.drained, hsound.holder⟩
  | drop hreturned =>
    rw [append_nil]
    refine ⟨hsound.calls, nofun, ?_, hsound.delivering, hsound.fails, fun _ => rfl, fun _ => nofun,
      hsound.holder⟩
    intro error senders hreader i hi
    obtain ⟨call, hcall, hlate, -⟩ := hsound.senders error senders hreader i hi
    exact ⟨call, hcall, hlate, nofun⟩

end ScxAgent.Mcp
