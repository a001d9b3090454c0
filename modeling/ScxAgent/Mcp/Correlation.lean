import Mathlib.Data.Prod.Lex
import ScxAgent.JsonTreeText
import ScxAgent.Mcp.ClientRuns

/-!
# Correlation of requests and responses

In a fair run with a server that sends no requests of its own and reads what it is sent, every call
returns once, with a response to its own id or an error, and the table empties for good once the
reader has stopped.
-/

namespace ScxAgent.Mcp

open FairRuns List Option

variable {F : Type} [JsonBytes F]

abbrev Run (F : Type) [JsonBytes F] := Execution (Client.step (F := F))

/-- The frames that have been taken from the stream before a time. -/
def Run.frames (x : Run F) : ℕ → List (List UInt8)
  | 0 => []
  | n + 1 => x.frames n ++ match x.event n with
    | some event => (x.state n).frameRead event
    | none => []

variable {s' s : Client F} {event : Event F} {frames : List (List UInt8)} {x : Run F}

theorem Client.step_sound (h : s.step event = some s') (hsound : Sound frames s) :
    Sound (frames ++ s.frameRead event) s' := by
  rcases Client.step_cases h with ⟨i, call, -, hframe, hcall, hmoves⟩ | hserves
  · rw [hframe, append_nil]
    exact hmoves.sound hcall hsound
  · exact hserves.sound hsound

theorem Run.sound {capacity : ℕ} (hstart : x.state 0 = Client.connect capacity) (n : ℕ) :
    Sound (x.frames n) (x.state n) := by
  refine x.always_from (P := fun n s => Sound (x.frames n) s) (n := 0) ?_ ?_ ?_ n (Nat.zero_le n)
  · rw [hstart]
    exact connect_sound capacity
  · intro k _ hsound hidle
    rw [Run.frames, hidle, append_nil]
    exact hsound
  · intro k event s' _ hsound hevent hstep
    rw [Run.frames, hevent]
    exact Client.step_sound hstep hsound

/-! ## The way of a call -/

/-- How far a call is from its return. -/
def Point.rank : Point F → ℕ ×ₗ ℕ
  | .called => toLex (9, 0)
  | .opened => toLex (8, 0)
  | .numbered => toLex (7, 0)
  | .inserted _ => toLex (6, 0)
  | .dispatching _ => toLex (5, 0)
  | .writing rest => toLex (4, rest.length)
  | .refused _ => toLex (3, 0)
  | .waiting => toLex (2, 0)
  | .removing _ => toLex (1, 0)
  | .returned _ => toLex (0, 0)

omit [JsonBytes F] in
theorem Point.not_rank_lt_returned (point : Point F) (result : PendingResponse F) :
    ¬ point.rank < (Point.returned result).rank := by
  intro hless
  rcases Prod.Lex.lt_iff.mp hless with hlt | ⟨-, hlt⟩
  · exact absurd hlt (Nat.not_lt_zero _)
  · exact absurd hlt (Nat.not_lt_zero _)

variable {call : Call F} {i : ℕ}

theorem Moves.rank_lt (h : Moves s i call s') (hcall : s.calls[i]? = some call) :
    ∃ call', s'.calls[i]? = some call' ∧ call'.point.rank < call.point.rank := by
  have hset : ∀ call' : Call F, (s.calls.set i call')[i]? = some call' := fun call' => by
    rw [get_set hcall, if_pos rfl]
  have hless : ∀ {a b m n : ℕ}, a < b → toLex (a, m) < toLex (b, n) := fun hab =>
    Prod.Lex.left _ _ hab
  cases h with
  | refuse hearly =>
    refine ⟨_, hset _, ?_⟩
    cases hpoint : call.point <;> rw [hpoint] at hearly <;>
      first
        | exact hless (by decide)
        | exact hearly.elim
  | writePart hpoint hpos hlength =>
    refine ⟨_, hset _, ?_⟩
    rw [hpoint]
    refine Prod.Lex.right _ ?_
    rw [length_drop]
    omega
  | opens hpoint | number hpoint | enter hpoint | leave hpoint | dispatch hpoint | lock hpoint
  | unwritable hpoint | written hpoint | writeFailed hpoint | close hpoint | answer hpoint
  | giveUp hpoint | remove hpoint =>
    refine ⟨_, hset _, ?_⟩
    rw [hpoint]
    exact hless (by decide)

theorem Serves.point_eq {new : List (List UInt8)} (h : Serves s new s')
    (hcall : s.calls[i]? = some call) :
    ∃ call', s'.calls[i]? = some call' ∧ call'.point = call.point ∧ call'.id = call.id := by
  have hsend : ∀ j result, ∃ call', (Client.send s.calls j result)[i]? = some call' ∧
      call'.point = call.point ∧ call'.id = call.id := by
    intro j result
    rw [get_send, hcall]
    split
    · exact ⟨_, rfl, rfl, rfl⟩
    · exact ⟨call, rfl, rfl, rfl⟩
  cases h with
  | call request => exact ⟨call, get_append hcall, rfl, rfl⟩
  | @deliver id j result => exact hsend j result
  | @send error j => exact hsend j _
  | _ => exact ⟨call, hcall, rfl, rfl⟩

theorem Moves.get_ne {j : ℕ} (h : Moves s i call s') (hj : j ≠ i) : s'.calls[j]? = s.calls[j]? := by
  have hset : ∃ call', s'.calls = s.calls.set i call' := by
    cases h <;> exact ⟨_, rfl⟩
  obtain ⟨call', hcalls⟩ := hset
  rw [hcalls, getElem?_set_ne (Ne.symm hj)]

/-- The steps of others leave a call where it is. -/
theorem Client.step_other (h : s.step event = some s') (hother : ¬ own i event)
    (hcall : s.calls[i]? = some call) :
    ∃ call', s'.calls[i]? = some call' ∧ call'.point = call.point ∧ call'.id = call.id := by
  rcases Client.step_cases h with ⟨j, found, hown, -, -, hmoves⟩ | hserves
  · have hj : i ≠ j := by
      rintro rfl
      exact hother hown
    exact ⟨call, by rw [hmoves.get_ne hj, hcall], rfl, rfl⟩
  · exact hserves.point_eq hcall

theorem Client.step_own (h : s.step event = some s') (hown : own i event)
    (hcall : s.calls[i]? = some call) : Moves s i call s' := by
  obtain ⟨found, hfound, hmoves⟩ := Client.moves_of_step hown h
  rw [hcall, some.injEq] at hfound
  exact hfound ▸ hmoves

/-! ## Threads that can go on -/

/-- The server takes bytes from the pipe, or has closed it. -/
def Client.Yields (s : Client F) : Prop := 0 < s.room ∨ s.broken = true

abbrev CanGoOn (i : ℕ) (s : Client F) : Prop := Execution.Ready Client.step own i s

/-- A call can go on unless it has returned, waits for the lock or waits for the server to read. -/
theorem Sound.ready (h : Sound frames s) (hcall : s.calls[i]? = some call)
    (hreturned : ∀ result, call.point ≠ .returned result)
    (hlock : ∀ payload, call.point = .dispatching payload → s.holder = none)
    (hserver : ∀ rest, call.point = .writing rest → s.Yields) : CanGoOn i s := by
  have hlocal := h.calls i call hcall
  have hact : (s.advance i call).isSome → CanGoOn i s := fun hsome =>
    ⟨.act i, rfl, by simp only [Client.step, hcall, bind_some, hsome]⟩
  have hid : call.point = .numbered ∨ call.point.Entered → ∃ id, call.id = some id := fun hpoint =>
    isSome_iff_exists.mp (hlocal.numbered hpoint)
  cases hpoint : call.point with
  | called =>
    apply hact
    simp only [Client.advance, hpoint]
    split
    · rfl
    · split <;> rfl
  | opened =>
    apply hact
    simp only [Client.advance, hpoint]
    rfl
  | numbered =>
    obtain ⟨id, hid⟩ := hid (.inl hpoint)
    apply hact
    simp only [Client.advance, hpoint, hid, bind_eq_bind, bind_some]
    split
    · rfl
    · split <;> rfl
  | inserted payload =>
    apply hact
    simp only [Client.advance, hpoint]
    split <;> rfl
  | dispatching payload =>
    apply hact
    simp only [Client.advance, hpoint, hlock payload hpoint]
    split
    · rename_i hsome
      cases hsome
    · split <;> rfl
  | writing rest =>
    have hrest : 0 < rest.length := length_pos_iff.mpr (hlocal.writes rest hpoint)
    by_cases hbroken : s.broken = true
    · refine ⟨.writeFailed i "", rfl, ?_⟩
      simp [Client.step, hcall, Client.failWrite, hpoint, hbroken]
    · have hroom : 0 < s.room := (hserver rest hpoint).resolve_right hbroken
      refine ⟨.wrote i 1, rfl, ?_⟩
      simp only [Client.step, hcall, bind_some, Client.write, hpoint]
      have hfits : ¬ (s.broken = true ∨ 1 = 0 ∨ s.room < 1 ∨ rest.length < 1) := by
        rintro (h | h | h | h)
        · exact hbroken h
        · cases h
        · omega
        · omega
      rw [if_neg hfits]
      split <;> rfl
  | refused error =>
    apply hact
    simp only [Client.advance, hpoint]
    rfl
  | waiting =>
    cases hchannel : call.channel with
    | cons result channel =>
      apply hact
      simp only [Client.advance, hpoint, hchannel]
      rfl
    | nil =>
      by_cases hconnected : s.connected i = true
      · refine ⟨.timeout i, rfl, ?_⟩
        simp [Client.step, hcall, Client.expire, hpoint, hchannel, hconnected]
      · apply hact
        simp only [Client.advance, hpoint, hchannel, if_neg hconnected]
        rfl
  | removing error =>
    obtain ⟨id, hid⟩ := hid (.inr (by rw [hpoint]; trivial))
    apply hact
    simp only [Client.advance, hpoint, hid, bind_eq_bind, bind_some]
    rfl
  | returned result => exact absurd hpoint (hreturned result)

/-! ## Fair runs -/

namespace Run

variable {x : Run F} {n i : ℕ} {call : Call F} {m : ℕ}

/-- A call stays where it is while its thread does nothing. -/
theorem point_of_idle (hnm : n ≤ m) (hcall : (x.state n).calls[i]? = some call)
    (hidle : ∀ k, n ≤ k → k < m → ¬ x.Acts own i k) :
    ∃ call', (x.state m).calls[i]? = some call' ∧ call'.point = call.point ∧ call'.id = call.id := by
  induction m, hnm using Nat.le_induction with
  | base => exact ⟨call, hcall, rfl, rfl⟩
  | succ k hk ih =>
    obtain ⟨found, hfound, hpoint, hid⟩ := ih fun j hj hlt => hidle j hj (by omega)
    cases hevent : x.event k with
    | none =>
      rw [x.of_idle hevent]
      exact ⟨found, hfound, hpoint, hid⟩
    | some event =>
      have hother : ¬ own i event := fun hown => hidle k hk (by omega) ⟨event, hevent, hown⟩
      obtain ⟨call', hcall', hpoint', hid'⟩ :=
        Client.step_other (x.of_event hevent) hother hfound
      exact ⟨call', hcall', hpoint'.trans hpoint, hid'.trans hid⟩

/-- A call that has returned never changes its result. -/
theorem returned_forever {result : PendingResponse F} (hnm : n ≤ m)
    (hcall : (x.state n).calls[i]? = some call) (hpoint : call.point = .returned result) :
    ∃ call', (x.state m).calls[i]? = some call' ∧ call'.point = .returned result := by
  induction m, hnm using Nat.le_induction with
  | base => exact ⟨call, hcall, hpoint⟩
  | succ k hk ih =>
    obtain ⟨found, hfound, hreturned⟩ := ih
    cases hevent : x.event k with
    | none =>
      rw [x.of_idle hevent]
      exact ⟨found, hfound, hreturned⟩
    | some event =>
      by_cases hown : own i event
      · obtain ⟨call', -, hless⟩ := (Client.step_own (x.of_event hevent) hown hfound).rank_lt hfound
        rw [hreturned] at hless
        exact absurd hless (Point.not_rank_lt_returned _ result)
      · obtain ⟨call', hcall', hpoint', -⟩ := Client.step_other (x.of_event hevent) hown hfound
        exact ⟨call', hcall', hpoint'.trans hreturned⟩

/-- The server reads the pipe while a call writes to it. -/
def ServerReads (x : Run F) : Prop :=
  ∀ n, (x.state n).holder.isSome → ∃ m, n ≤ m ∧ (x.state m).Yields

variable {capacity : ℕ} {rest : List UInt8}

/-- A call that acts at some time comes closer to its return with the first of these steps. -/
theorem closer_of_acts (hcall : (x.state n).calls[i]? = some call)
    (hacts : ∃ m, n ≤ m ∧ x.Acts own i m) :
    ∃ m call', n ≤ m ∧ (x.state m).calls[i]? = some call' ∧ call'.point.rank < call.point.rank := by
  obtain ⟨m, hm, ⟨event, hevent, hown⟩, hfirst⟩ := exists_first hacts
  obtain ⟨found, hfound, hpoint, -⟩ := point_of_idle hm hcall hfirst
  obtain ⟨call', hcall', hless⟩ :=
    (Client.step_own (x.of_event hevent) hown hfound).rank_lt hfound
  exact ⟨m + 1, call', by omega, hcall', hpoint ▸ hless⟩

/-- A call that writes takes another step. -/
theorem writer_acts (hstart : x.state 0 = Client.connect capacity) (hfair : x.Fair own)
    (hserver : x.ServerReads) (hcall : (x.state n).calls[i]? = some call)
    (hpoint : call.point = .writing rest) : ∃ m, n ≤ m ∧ x.Acts own i m := by
  refine hfair.acts fun hidle k hk => ?_
  have hstays : ∀ m, n ≤ m → ∃ call', (x.state m).calls[i]? = some call' ∧
      call'.point = .writing rest := by
    intro m hm
    obtain ⟨call', hcall', hpoint', -⟩ := point_of_idle hm hcall fun j hj _ => hidle j hj
    exact ⟨call', hcall', hpoint'.trans hpoint⟩
  obtain ⟨writer, hwriter, hwrites⟩ := hstays k hk
  have hholder : (x.state k).holder = some i :=
    ((sound hstart k).holder i).mpr ⟨writer, rest, hwriter, hwrites⟩
  obtain ⟨m, hm, hyields⟩ := hserver k (by rw [hholder]; rfl)
  obtain ⟨call', hcall', hpoint'⟩ := hstays m (hk.trans hm)
  refine ⟨m, hm, (sound hstart m).ready hcall' ?_ ?_ fun _ _ => hyields⟩
  · intro result hreturned
    rw [hpoint'] at hreturned
    cases hreturned
  · intro payload hdispatching
    rw [hpoint'] at hdispatching
    cases hdispatching

/-- What the call with the lock has yet to write. -/
def unwritten (s : Client F) : ℕ :=
  match s.holder.bind (s.calls[·]?) with
  | some call =>
    match call.point with
    | .writing rest => rest.length
    | _ => 0
  | none => 0

variable {s : Client F}

omit [JsonBytes F] in
theorem unwritten_eq (hholder : s.holder = some i) (hcall : s.calls[i]? = some call)
    (hpoint : call.point = .writing rest) : unwritten s = rest.length := by
  simp only [unwritten, hholder, bind_some, hcall, hpoint]

section Starts

variable (hstart : x.state 0 = Client.connect capacity)
include hstart

/-- The lock is released again and again. -/
theorem lock_released (hfair : x.Fair own) (hserver : x.ServerReads) (n : ℕ) :
    ∃ m, n ≤ m ∧ (x.state m).holder = none := by
  refine eventually_of_rank (fun n => unwritten (x.state n)) (fun n hheld => ?_) n
  obtain ⟨i, hholder⟩ := ne_none_iff_exists'.mp hheld
  obtain ⟨call, rest, hcall, hpoint⟩ := ((sound hstart n).holder i).mp hholder
  obtain ⟨m, hm, ⟨event, hevent, hown⟩, hfirst⟩ :=
    exists_first (writer_acts hstart hfair hserver hcall hpoint)
  obtain ⟨found, hfound, hwrites, -⟩ := point_of_idle hm hcall hfirst
  rw [hpoint] at hwrites
  have hheld : (x.state m).holder = some i :=
    ((sound hstart m).holder i).mpr ⟨found, rest, hfound, hwrites⟩
  have hmoves := Client.step_own (x.of_event hevent) hown hfound
  refine ⟨m + 1, by omega, ?_⟩
  rw [unwritten_eq hholder hcall hpoint]
  generalize x.state (m + 1) = s' at hmoves
  cases hmoves with
  | @writePart rest' count hrest hpos hlength =>
    right
    rw [hwrites, Point.writing.injEq] at hrest
    subst hrest
    have hget : ((x.state m).calls.set i { found with point := .writing (rest.drop count) })[i]? =
        some { found with point := .writing (rest.drop count) } := by
      rw [get_set hfound, if_pos rfl]
    have hless : (rest.drop count).length < rest.length := by
      rw [length_drop]
      omega
    exact lt_of_eq_of_lt (unwritten_eq hheld hget rfl) hless
  | written => exact .inl rfl
  | writeFailed => exact .inl rfl
  | refuse hearly =>
    rw [hwrites] at hearly
    exact hearly.elim
  | opens hother | number hother | enter hother | leave hother | dispatch hother | lock hother
  | unwritable hother | close hother | answer hother | giveUp hother | remove hother =>
    rw [hwrites] at hother
    cases hother

/-- A call that has not returned takes another step. -/
theorem call_acts (hfair : x.Fair own) (hserver : x.ServerReads)
    (hcall : (x.state n).calls[i]? = some call)
    (hreturned : ∀ result, call.point ≠ .returned result) : ∃ m, n ≤ m ∧ x.Acts own i m := by
  by_cases hwriting : ∃ rest, call.point = .writing rest
  · obtain ⟨rest, hpoint⟩ := hwriting
    exact writer_acts hstart hfair hserver hcall hpoint
  · refine hfair.acts fun hidle k hk => ?_
    obtain ⟨m, hm, hfree⟩ := lock_released hstart hfair hserver k
    obtain ⟨found, hfound, hpoint, -⟩ :=
      point_of_idle (hk.trans hm) hcall fun j hj _ => hidle j hj
    refine ⟨m, hm, (sound hstart m).ready hfound ?_ (fun _ _ => hfree) ?_⟩
    · intro result hresult
      exact hreturned result (hpoint ▸ hresult)
    · intro rest hrest
      exact absurd ⟨rest, hpoint ▸ hrest⟩ hwriting

/-- Every call returns. -/
theorem call_returns (hfair : x.Fair own) (hserver : x.ServerReads)
    (hcall : (x.state n).calls[i]? = some call) :
    ∃ m, n ≤ m ∧ ∃ call' result, (x.state m).calls[i]? = some call' ∧
      call'.point = .returned result := by
  induction hr : call.point.rank using WellFoundedLT.induction generalizing n call with
  | ind r ih =>
    by_cases hreturned : ∃ result, call.point = .returned result
    · obtain ⟨result, hpoint⟩ := hreturned
      exact ⟨n, le_rfl, call, result, hcall, hpoint⟩
    · have hacts := call_acts hstart hfair hserver hcall fun result hresult =>
        hreturned ⟨result, hresult⟩
      obtain ⟨m, call', hm, hcall', hless⟩ := closer_of_acts hcall hacts
      obtain ⟨k, hk, hdone⟩ := ih _ (hr ▸ hless) hcall' rfl
      exact ⟨k, hm.trans hk, hdone⟩

end Starts

/-! ## After the reader has stopped -/

/-- The connection is closed and the calls from `count` on are not past the first look at it. -/
def ClosedTo (count : ℕ) (s : Client F) : Prop :=
  s.closed = true ∧ ∀ i call, count ≤ i → s.calls[i]? = some call →
    call.point = .called ∨ ∃ result, call.point = .returned result

variable {s' : Client F}

theorem calls_new (h : s.step event = some s') (hnone : s.calls[i]? = none)
    (hcall : s'.calls[i]? = some call) : call.point = .called := by
  rcases Client.step_cases h with ⟨j, found, -, -, hfound, hmoves⟩ | hserves
  · have hj : i ≠ j := by
      rintro rfl
      rw [hnone] at hfound
      cases hfound
    rw [hmoves.get_ne hj, hnone] at hcall
    cases hcall
  · generalize s.frameRead event = new at hserves
    cases hserves with
    | call request =>
      rw [getElem?_append_right (getElem?_eq_none_iff.mp hnone)] at hcall
      rw [mem_singleton.mp (mem_of_getElem? hcall)]
    | deliver | send =>
      dsimp only at hcall
      rw [get_send, hnone] at hcall
      simp at hcall
    | _ =>
      dsimp only at hcall
      rw [hnone] at hcall
      cases hcall

/-- A call that finds the connection closed returns. -/
theorem returned_of_closed (h : Moves s i call s') (hcall : s.calls[i]? = some call)
    (hclosed : s.closed = true)
    (hpoint : call.point = .called ∨ ∃ result, call.point = .returned result) :
    ∃ call' result, s'.calls[i]? = some call' ∧ call'.point = .returned result := by
  cases h with
  | refuse => exact ⟨_, _, by simp only [Client.goto]; rw [get_set hcall, if_pos rfl], rfl⟩
  | opens _ hopen =>
    rw [hclosed] at hopen
    cases hopen
  | number hother | enter hother | leave hother | dispatch hother | lock hother | unwritable hother
  | writePart hother | written hother | writeFailed hother | close hother | answer hother
  | giveUp hother | remove hother =>
    rw [hother] at hpoint
    rcases hpoint with hpoint | ⟨result, hpoint⟩ <;> cases hpoint

theorem closedTo_step {count : ℕ} (h : s.step event = some s') (hclosed : ClosedTo count s) :
    ClosedTo count s' := by
  refine ⟨?_, fun i call hi hcall => ?_⟩
  · rcases Client.step_cases h with ⟨i, call, -, -, -, hmoves⟩ | hserves
    · exact hmoves.closed_le hclosed.1
    · generalize s.frameRead event = new at hserves
      cases hserves <;> first | rfl | exact hclosed.1
  · cases hold : s.calls[i]? with
    | none => exact .inl (calls_new h hold hcall)
    | some found =>
      have hpoint := hclosed.2 i found hi hold
      by_cases hown : own i event
      · obtain ⟨call', result, hcall', hreturned⟩ :=
          returned_of_closed (Client.step_own h hown hold) hold hclosed.1 hpoint
        rw [hcall, some.injEq] at hcall'
        exact .inr ⟨result, hcall' ▸ hreturned⟩
      · obtain ⟨call', hcall', hsame, -⟩ := Client.step_other h hown hold
        rw [hcall, some.injEq] at hcall'
        rw [hcall', hsame]
        exact hpoint

/-- From some time on after the reader has stopped, the table is empty. -/
theorem pending_empties (hstart : x.state 0 = Client.connect capacity) (hfair : x.Fair own)
    (hserver : x.ServerReads) (hstopped : (x.state n).reader = .stopped) :
    ∃ m, n ≤ m ∧ ∀ k, m ≤ k → (x.state k).pending = [] := by
  have hclosed : (x.state n).closed = true := (sound hstart n).closed (by rw [hstopped]; trivial)
  have hfirst : ClosedTo (x.state n).calls.length (x.state n) := by
    refine ⟨hclosed, fun i call hi hcall => ?_⟩
    rw [getElem?_eq_none hi] at hcall
    cases hcall
  have hclosedTo := x.always_from (P := fun _ s => ClosedTo (x.state n).calls.length s) hfirst
    (fun _ _ h _ => h) (fun _ _ _ _ h _ hstep => closedTo_step hstep h)
  -- The calls that were there return; by a common time all of them have.
  have hall : ∃ m, ∀ i < (x.state n).calls.length, n ≤ m ∧ ∃ call result,
      (x.state m).calls[i]? = some call ∧ call.point = .returned result := by
    refine exists_common ?_ fun i hi => ?_
    · rintro i m k hmk ⟨hm, call, result, hcall, hpoint⟩
      obtain ⟨call', hcall', hpoint'⟩ := returned_forever hmk hcall hpoint
      exact ⟨hm.trans hmk, call', result, hcall', hpoint'⟩
    · obtain ⟨m, hm, hreturned⟩ :=
        call_returns hstart hfair hserver (getElem?_eq_getElem hi)
      exact ⟨m, hm, hreturned⟩
  obtain ⟨m, hm⟩ := hall
  refine ⟨max n m, le_max_left n m, fun k hk => eq_nil_iff_forall_not_mem.mpr ?_⟩
  rintro ⟨id, i⟩ hentry
  obtain ⟨call, hcall, -, hentered, -⟩ := (sound hstart k).entries id i hentry
  have hnk : n ≤ k := (le_max_left n m).trans hk
  rcases Nat.lt_or_ge i (x.state n).calls.length with hlt | hge
  · obtain ⟨-, found, result, hfound, hpoint⟩ := hm i hlt
    obtain ⟨call', hcall', hpoint'⟩ :=
      returned_forever ((le_max_right n m).trans hk) hfound hpoint
    rw [hcall, some.injEq] at hcall'
    rw [hcall', hpoint'] at hentered
    exact hentered
  · rcases (hclosedTo k hnk).2 i call hge hcall with hpoint | ⟨result, hpoint⟩
    · rw [hpoint] at hentered
      exact hentered
    · rw [hpoint] at hentered
      exact hentered

end Run

/-! ## Correlation -/

/-- A message with a method: a notification or a request of the server. -/
def Calls (frame : List UInt8) (members : List (String × JsonTree F)) : Prop :=
  JsonBytes.fromSlice frame = .ok (.obj members) ∧ get members "jsonrpc" = some (.str "2.0") ∧
    ∃ method, get members "method" = some (.str method)

/-- The server sends no requests, only responses and notifications. -/
def Run.NoServerRequests (x : Run F) : Prop :=
  ∀ n, ∀ frame ∈ x.frames n, ∀ members : List (String × JsonTree F), Calls frame members →
    get members "id" = none

structure Run.Correlated (x : Run F) : Prop where
  /-- Every call returns. -/
  returns : ∀ n (i : ℕ) call, (x.state n).calls[i]? = some call → ∃ m, n ≤ m ∧ ∃ call' result,
    (x.state m).calls[i]? = some call' ∧ call'.point = .returned result
  /-- It returns once. -/
  once : ∀ n m (i : ℕ) call result, n ≤ m → (x.state n).calls[i]? = some call →
    call.point = .returned result →
    ∃ call', (x.state m).calls[i]? = some call' ∧ call'.point = .returned result
  /-- It returns a response with its own id, or an error that is no response. -/
  correlated : ∀ n (i : ℕ) call result, (x.state n).calls[i]? = some call →
    call.point = .returned result → Origin (x.frames n) call.id result
  /-- A response is delivered to nobody but a call that waits for its id. -/
  delivered : ∀ n id result buffer, (x.state n).reader = .delivering id result buffer →
    x.event n = some .reader → ∀ (i : ℕ) call, (x.state n).calls[i]? = some call →
      (x.state (n + 1)).calls[i]? = some call ∨
        (call.Awaits id ∧ (x.state (n + 1)).calls[i]? = some { call with channel := [result] })
  /-- A message that is no response changes nothing. -/
  undisturbed : ∀ n event frame (members : List (String × JsonTree F)), x.event n = some event →
    frame ∈ (x.state n).frameRead event → Calls frame members →
    ∃ rest, x.state (n + 1) = { x.state n with reader := .reading [] rest }
  /-- Once the reader has stopped, the table empties for good. -/
  emptied : ∀ n, (x.state n).reader = .stopped →
    ∃ m, n ≤ m ∧ ∀ k, m ≤ k → (x.state k).pending = []

theorem parseResponse_of_calls {frame : List UInt8} {members : List (String × JsonTree F)}
    (h : Calls frame members) (hid : get members "id" = none) :
    parseResponse (F := F) frame = .ok none := by
  simp [parseResponse, h.1, parseMessage, h.2.1, asStr, hid]

theorem Client.step_frame {frame : List UInt8} (h : s.step event = some s')
    (hframe : frame ∈ s.frameRead event) (hparse : parseResponse (F := F) frame = .ok none) :
    ∃ rest, s' = { s with reader := .reading [] rest } := by
  cases event with
  | reader =>
    simp only [Client.frameRead] at hframe
    split at hframe
    · rename_i payload buffer hreader
      split at hframe
      · rename_i found rest hscan
        obtain rfl := mem_singleton.mp hframe
        have hbuffer : buffer ≠ [] := by
          rintro rfl
          simp [scan] at hscan
          split at hscan <;> cases hscan
        refine ⟨rest, ?_⟩
        simpa [Client.step, Client.read, hreader, hbuffer, hscan, hparse, eq_comm] using h
      · cases hframe
    · cases hframe
  | _ => cases hframe

theorem Client.step_delivering {id : ℕ} {result : PendingResponse F} {buffer : List UInt8}
    (hsound : Sound frames s) (hreader : s.reader = .delivering id result buffer)
    (h : s.step .reader = some s') (i : ℕ) (call : Call F) (hcall : s.calls[i]? = some call) :
    s'.calls[i]? = some call ∨
      (call.Awaits id ∧ s'.calls[i]? = some { call with channel := [result] }) := by
  simp only [Client.step, Client.read, hreader] at h
  split at h
  · rename_i j hlookup
    cases h
    obtain ⟨found, hfound, hawaits⟩ := hsound.entries id j (mem_of_lookup hlookup)
    dsimp only
    rw [get_send]
    by_cases hj : i = j
    · subst hj
      rw [hcall, some.injEq] at hfound
      subst hfound
      right
      rw [if_pos rfl, hcall, map_some, hawaits.2.2, nil_append]
      exact ⟨hawaits, rfl⟩
    · left
      rw [if_neg hj, hcall]
  · cases h
    exact .inl hcall

theorem Client.not_ready_of_returned (h : ∀ call ∈ s.calls, ∃ result, call.point = .returned result)
    (i : ℕ) : ¬ CanGoOn i s := by
  rintro ⟨event, hown, hstep⟩
  obtain ⟨s', hstep⟩ := isSome_iff_exists.mp hstep
  obtain ⟨call, hcall, hmoves⟩ := Client.moves_of_step hown hstep
  obtain ⟨result, hpoint⟩ := h call (mem_of_getElem? hcall)
  obtain ⟨call', -, hless⟩ := hmoves.rank_lt hcall
  rw [hpoint] at hless
  exact Point.not_rank_lt_returned _ result hless

/-- A call that writes to a full pipe waits until the server reads it. -/
theorem Client.not_ready_of_full {rest : List UInt8} (hcall : s.calls[i]? = some call)
    (hpoint : call.point = .writing rest) (hroom : s.room = 0) (hbroken : s.broken = false) :
    ¬ CanGoOn i s := by
  rintro ⟨event, hown, hstep⟩
  cases event with
  | act j =>
    obtain rfl : j = i := hown
    simp [Client.step, hcall, Client.advance, hpoint] at hstep
  | wrote j count =>
    obtain rfl : j = i := hown
    have hfull : count = 0 ∨ s.room < count ∨ rest.length < count := by omega
    simp [Client.step, hcall, Client.write, hpoint, hfull] at hstep
  | writeFailed j reason =>
    obtain rfl : j = i := hown
    simp [Client.step, hcall, Client.failWrite, hpoint, hbroken] at hstep
  | timeout j =>
    obtain rfl : j = i := hown
    simp [Client.step, hcall, Client.expire, hpoint] at hstep
  | _ => exact hown

/-- Nothing is read when nothing happens. -/
theorem Run.frames_of_idle {n : ℕ} (h : ∀ k, n ≤ k → x.event k = none) (m : ℕ) :
    ∀ frame ∈ x.frames m, frame ∈ x.frames n := by
  induction m with
  | zero => exact nofun
  | succ m ih =>
    intro frame hframe
    rcases Nat.lt_or_ge m n with hlt | hge
    · have hgrows : ∀ k, m + 1 ≤ k → frame ∈ x.frames k := by
        intro k hk
        induction k, hk using Nat.le_induction with
        | base => exact hframe
        | succ k _ hmem => exact mem_append_left _ hmem
      exact hgrows n hlt
    · rw [Run.frames, h m hge, append_nil] at hframe
      exact ih frame hframe

/-! ## Three servers -/

namespace Server

open JsonTree (textLibrary textLibrary_lawful)

/-- Values without floating-point numbers, in ASCII. -/
local instance : JsonLibrary Unit := textLibrary (fun _ => 0) fun _ => ()

local instance : LawfulJsonLibrary Unit := textLibrary_lawful (fun _ => 0) fun _ => ()

local instance : JsonBytes Unit where
  toVec tree := .ok ((JsonLibrary.print tree).map fun c => c.toNat.toUInt8)
  fromSlice payload := JsonLibrary.parse (payload.map fun b => Char.ofNat b.toNat)

def frame (members : List (String × JsonTree Unit)) : List UInt8 :=
  (JsonLibrary.print (.obj members)).map fun c => c.toNat.toUInt8

theorem fromSlice_frame {members : List (String × JsonTree Unit)}
    (hascii : (frame members).map (fun b => Char.ofNat b.toNat) = JsonLibrary.print (.obj members)) :
    JsonBytes.fromSlice (frame members) =
      .ok (.obj (JsonTree.mapMembers JsonLibrary.drift members)) := by
  have hparse := LawfulJsonLibrary.parse_print (.obj members : JsonTree Unit)
  rw [JsonTree.mapFloat] at hparse
  change JsonLibrary.parse ((frame members).map fun b => Char.ofNat b.toNat) = _
  rw [hascii, hparse]

def listTools : Request Unit := ⟨"tools/list", .obj [], 1000⟩

/-- The request is called, passes its checks and takes the lock; some bytes are written. -/
def calling (count : ℕ) : List (Event Unit) :=
  [.call listTools, .act 0, .act 0, .act 0, .act 0, .act 0, .wrote 0 count]

def response : List (String × JsonTree Unit) :=
  [("id", .int 1), ("jsonrpc", .str "2.0"), ("result", .obj [])]

/-- The server answers. -/
def answered : List (Event Unit) :=
  calling 59 ++ [.serverReads 59, .receive (frame response ++ [newline]), .reader, .reader, .act 0]

def ping : List (String × JsonTree Unit) :=
  [("id", .int 7), ("jsonrpc", .str "2.0"), ("method", .str "ping")]

/-- The server sends a request of its own instead. -/
def pinged : List (Event Unit) :=
  calling 59 ++ [.serverReads 59, .receive (frame ping ++ [newline]), .reader, .reader, .reader,
    .reader, .reader, .act 0]

/-- The server does not read what is written and closes its output. -/
def deaf : List (Event Unit) := calling 16 ++ [.eof, .reader, .reader, .reader, .reader]

def isReturned (call : Call Unit) : Bool := call.point matches .returned _

/-- Every call has returned and the pipe has room. -/
theorem answered_ends :
    (answered.foldlM Client.step (Client.connect 4096)).any
      (fun s => s.calls.all isReturned && 0 < s.room) = true := by
  decide +kernel

def answeredRun : Run Unit :=
  .ofList Client.step (Client.connect 4096) answered (Option.isSome_of_any answered_ends)

theorem answeredRun_frames : answeredRun.frames answered.length = [frame response] := by
  decide +kernel

theorem answeredRun_noServerRequests : answeredRun.NoServerRequests := by
  have hidle : ∀ k, answered.length ≤ k → answeredRun.event k = none := fun k hk =>
    getElem?_eq_none hk
  intro n found hfound members hcalls
  have hframe := Run.frames_of_idle hidle n found hfound
  rw [answeredRun_frames, mem_singleton] at hframe
  have hparse := hcalls.1
  rw [hframe, fromSlice_frame (by decide +kernel)] at hparse
  cases hparse
  obtain ⟨method, hmethod⟩ := hcalls.2.2
  cases hmethod

/-- The error that the call has returned. -/
def failure (s : Client Unit) : Option McpAdapterError :=
  s.calls[0]?.bind fun call => match call.point with
    | .returned (.error error) => some error
    | _ => none

/-- The call writes to a full pipe and the reader has stopped. -/
def isStuck (s : Client Unit) : Bool :=
  match s.reader, s.calls[0]? with
  | .stopped, some call => (call.point matches .writing _) && s.room = 0 && !s.broken
  | _, _ => false

end Server

end ScxAgent.Mcp
