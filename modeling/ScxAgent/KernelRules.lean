import ScxAgent.KernelSteps

/-!
# Rules for the helpers of the kernel

One rule for each helper that makes a single external call. A rule names the states in which
the helper may end and asks for the postcondition there. What can go wrong without any fault
of the kernel is collected in `Troubled`: a call that did not succeed, or a transaction
identifier that leaves no room for the operation identifiers built from it.
-/

set_option linter.unusedSectionVars false

namespace ScxAgent

open Std StepLogic List TransactionWal

variable {V W ω : Type}

/-! ## Operation identifiers -/

def IsLabel (label : String) : Prop :=
  (∀ c ∈ label.toList, isVisible c = true) ∧ label.toList.length ≤ 17

/-- The labels that the kernel uses. -/
def operationLabels : List String :=
  ["experiment", "revision", "replay", "restore", "finalize", "baseline-observed", "drift",
    "verify"]

variable {label : String} {n : ℕ} {transactionId : TransactionId}

theorem isLabel_of_mem (h : label ∈ operationLabels) : IsLabel label := by
  have hall : ∀ l ∈ operationLabels, IsLabel l := by
    simp [operationLabels, IsLabel, isVisible]
  exact hall label h

theorem operationText_eq (transactionId : TransactionId) (label : String) (n : ℕ) :
    operationText transactionId label n =
      transactionId.value ++ ("/" ++ label ++ "/" ++ toString n) := by
  simp only [operationText, ToString.toString, String.append_assoc]

theorem digits_visible {c : Char} (h : c ∈ (toString n).toList) : isVisible c = true := by
  have hdigits : (toString n).toList = Nat.toDigits 10 n := by
    change n.repr.toList = _
    rw [Nat.repr_eq_ofList_toDigits, String.toList_ofList]
  rw [hdigits] at h
  have hdigit := Nat.isDigit_of_mem_toDigits (by decide) (by decide) h
  simp only [Char.isDigit, Bool.and_eq_true, decide_eq_true_eq, UInt32.le_iff_toNat_le] at hdigit
  simp only [isVisible, Bool.and_eq_true, decide_eq_true_eq, Char.toNat]
  have h48 : (48 : UInt32).toNat = 48 := rfl
  have h57 : (57 : UInt32).toNat = 57 := rfl
  change (48 : UInt32).toNat ≤ _ ∧ _ ≤ (57 : UInt32).toNat at hdigit
  omega

theorem length_digits (h : n < 2 ^ 64) : (toString n).toList.length ≤ 20 := by
  change n.repr.toList.length ≤ 20
  rw [Nat.repr_eq_ofList_toDigits, String.toList_ofList]
  exact Nat.toDigits_length 10 n 20 (by decide) (h.trans (by decide))

theorem operationText_ok (htx : transactionId.value.utf8ByteSize ≤ 217) (hlabel : IsLabel label)
    (hn : n < 2 ^ 64) :
    ∃ operationId : OperationId,
      TextId.new (operationText transactionId label n) = .ok operationId := by
  rw [operationText_eq]
  have hslash : isVisible '/' = true := by decide
  refine TextId.new_ok_append transactionId prefix_rfl ?_ ?_ ?_
  · simp
  · intro c hc
    simp only [String.toList_append, mem_append] at hc
    rcases hc with ((hc | hc) | hc) | hc
    · rw [mem_singleton.mp hc]
      exact hslash
    · exact hlabel.1 c hc
    · rw [mem_singleton.mp hc]
      exact hslash
    · exact digits_visible hc
  · have hdigits := length_digits hn
    have hshort := hlabel.2
    simp only [String.toList_append, length_append]
    change _ + (1 + label.toList.length + 1 + _) ≤ 256
    omega

/-- An operation that only observes is never taken for one that was announced. -/
theorem operationText_ne_intent (hlabel : label = "baseline-observed" ∨ label = "drift")
    (operation : OperationIntentKind) (n n' : ℕ) :
    operationText transactionId label n ≠
      operationText transactionId (intentLabel operation) n' := by
  intro heq
  rw [operationText_eq, operationText_eq] at heq
  have hlist := congrArg String.toList heq
  simp only [String.toList_append, append_cancel_left_eq, append_assoc] at hlist
  rcases hlabel with rfl | rfl <;> cases operation <;> simp [intentLabel] at hlist

/-! ## What a step keeps -/

section Steps

variable [DecidableEq V] [Serialize V] [Sha256] [TransactionWal V ω] {P : Permit V W ω}
  {m m' : Machine V W ω}

/-- Two machines of one transaction, the second later than the first. -/
structure Extends (m m' : Machine V W ω) : Prop where
  transactionId : m'.kernel.transactionId = m.kernel.transactionId
  intentPin : m'.kernel.intentPin = m.kernel.intentPin
  capabilities : m'.kernel.capabilities = m.kernel.capabilities
  trace : m.trace <+: m'.trace

theorem Extends.refl (m : Machine V W ω) : Extends m m :=
  ⟨rfl, rfl, rfl, prefix_refl _⟩

theorem Extends.trans {m'' : Machine V W ω} (h : Extends m m') (h' : Extends m' m'') :
    Extends m m'' :=
  ⟨h'.transactionId.trans h.transactionId, h'.intentPin.trans h.intentPin,
    h'.capabilities.trans h.capabilities, h.trace.trans h'.trace⟩

theorem Step.extends (h : Step P m m') : Extends m m' := by
  cases h with
  | write st w wal => cases w <;> exact ⟨rfl, rfl, rfl, prefix_append _ _⟩
  | tick | focus _ | lose _ _ _ => exact ⟨rfl, rfl, rfl, prefix_refl _⟩
  | _ => exact ⟨rfl, rfl, rfl, prefix_append _ _⟩

theorem Steps.extends (h : (kernelSystem P).Steps m m') : Extends m m' :=
  System.Steps.relates Extends.refl (fun _ _ _ => Extends.trans) (fun _ _ => Step.extends) h

/-- The kernel can build the identifiers of its operations. -/
def RoomForIds (k : TransactionKernel V W ω) : Prop :=
  k.transactionId.value.utf8ByteSize ≤ 217 ∧ k.operationCounter < 2 ^ 64

theorem tick_counter_lt (k : TransactionKernel V W ω) : k.tick.operationCounter < 2 ^ 64 := by
  change min _ _ < _
  omega

theorem Step.room (h : Step P m m') (hroom : RoomForIds m.kernel) : RoomForIds m'.kernel := by
  cases h with
  | write st w wal => cases w <;> exact hroom
  | tick => exact ⟨hroom.1, tick_counter_lt m.kernel⟩
  | call call w' => exact hroom
  | roll wal => exact hroom
  | commit st candidate authorization wal => exact hroom
  | refuse event error wal => exact hroom
  | focus candidate => exact hroom
  | lose st changeId operationId => exact hroom

theorem Steps.room (h : (kernelSystem P).Steps m m') (hroom : RoomForIds m.kernel) :
    RoomForIds m'.kernel :=
  System.Steps.invariant (I := fun m => RoomForIds m.kernel)
    (fun _ _ hs hstep => Step.room hstep hs) h hroom

/-! ## Trouble from outside -/

def Call.Succeeded : Call V → Prop
  | .prepare _ _ reply => ∃ prepared, reply = .answered (.ok prepared)
  | .apply _ _ reply => ∃ receipt, reply = .answered (.ok receipt) ∧ receipt.state = .applied
  | .status _ reply => ∃ status, reply = .answered (.ok status)
  | .verify _ _ reply => ∃ verification, reply = .answered (.ok verification)
  | .restore _ _ reply => ∃ receipt, reply = .answered (.ok receipt) ∧ receipt.state = .restored
  | .finalize _ _ reply => ∃ receipt, reply = .answered (.ok receipt) ∧ receipt.state = .finalized
  | .append _ reply => reply = .answered (.ok ())
  | .recovered _ => True

/-- The events of a trace after those that `m` has seen. -/
def newEvents (m m' : Machine V W ω) : List (Event V W ω) :=
  m'.trace.drop m.trace.length

theorem newEvents_self (m : Machine V W ω) : newEvents m m = [] :=
  drop_length

theorem trace_eq_append (h : Extends m m') : m'.trace = m.trace ++ newEvents m m' := by
  obtain ⟨rest, hrest⟩ := h.trace
  rw [newEvents, ← hrest, drop_left]

variable {m'' : Machine V W ω}

theorem newEvents_trans (h : Extends m m') (h' : Extends m' m'') :
    newEvents m m'' = newEvents m m' ++ newEvents m' m'' := by
  have hwhole := trace_eq_append (h.trans h')
  rw [trace_eq_append h', trace_eq_append h, append_assoc] at hwhole
  exact (append_cancel_left hwhole).symm

def Troubled (m m' : Machine V W ω) : Prop :=
  (∃ event ∈ newEvents m m', ¬ event.call.Succeeded) ∨ ¬ RoomForIds m.kernel

theorem Troubled.before (h : Troubled m' m'') (hsteps : (kernelSystem P).Steps m m')
    (hsteps' : (kernelSystem P).Steps m' m'') : Troubled m m'' := by
  rcases h with ⟨event, hmem, hfailed⟩ | hroom
  · refine .inl ⟨event, ?_, hfailed⟩
    rw [newEvents_trans (Steps.extends hsteps) (Steps.extends hsteps')]
    exact mem_append_right _ hmem
  · exact .inr fun h => hroom (Steps.room hsteps h)

theorem Troubled.after (h : Troubled m m') (hsteps : (kernelSystem P).Steps m m')
    (hsteps' : (kernelSystem P).Steps m' m'') : Troubled m m'' := by
  rcases h with ⟨event, hmem, hfailed⟩ | hroom
  · refine .inl ⟨event, ?_, hfailed⟩
    rw [newEvents_trans (Steps.extends hsteps) (Steps.extends hsteps')]
    exact mem_append_left _ hmem
  · exact .inr hroom

theorem newEvents_called (m : Machine V W ω) (call : Call V) (w' : W) :
    newEvents m (m.called call w') = [⟨m.kernel.wal, m.world, call⟩] :=
  drop_left

theorem newEvents_appended (m : Machine V W ω) (event : WalEvent V)
    (reply : Reply WalError Unit) (wal : ω) :
    newEvents m (m.appended event reply wal) =
      [⟨m.kernel.wal, m.world, .append (m.entry event) reply⟩] :=
  drop_left

theorem newEvents_written (m : Machine V W ω) (w : LogWrite V) (wal : ω) :
    newEvents m (m.written w wal) =
      [⟨m.kernel.wal, m.world, .append (m.entry w.event) (.answered (.ok ()))⟩] :=
  drop_left

theorem troubled_called {call : Call V} (h : ¬ call.Succeeded) (w' : W) :
    Troubled m (m.called call w') :=
  .inl ⟨_, by rw [newEvents_called]; exact mem_singleton.mpr rfl, h⟩

theorem troubled_refused (event : WalEvent V) (error : WalError) (wal : ω) :
    Troubled m (m.appended event (.answered (.error error)) wal) :=
  .inl ⟨_, by rw [newEvents_appended]; exact mem_singleton.mpr rfl, fun h => by cases h⟩

/-! ## Reading and counting -/

variable {α : Type} {Q : α → Machine V W ω → Prop} {E : TransactionError → Machine V W ω → Prop}
  {st : Replay V} {changeId : ChangeId} {change : ChangeRecord V} {p : KernelM V W ω Unit}
  {operationId : OperationId} {state : ChangeState} {mark : Bool}

theorem kernel_run (m : Machine V W ω) : kernel m = (.ok m.kernel, m) := rfl

theorem changeAt_run (hget : m.kernel.changes[changeId]? = some change) :
    changeAt changeId m = (.ok change, m) := by
  rw [changeAt, bind_ok (kernel_run m), hget]
  rfl

theorem ensureOpen_follows {Q : Unit → Machine V W ω → Prop} (hlive : Live m st) (h : Q () m) :
    Follows (kernelSystem P) ensureOpen m Q E := by
  refine Follows.bind_read (kernel_run m) ?_
  rw [hlive.unsealed]
  exact Follows.pure h

theorem nextOperationId_follows {Q : OperationId → Machine V W ω → Prop}
    (hlabel : label ∈ operationLabels)
    (hQ : ∀ operationId : OperationId, operationId.value = operationText m.kernel.transactionId
      label m.kernel.tick.operationCounter → Q operationId (m.update TransactionKernel.tick))
    (hE : ∀ e, ¬ RoomForIds m.kernel → E e (m.update TransactionKernel.tick)) :
    Follows (kernelSystem P) (nextOperationId label) m Q E := by
  refine Follows.seq (Follows.assign .tick (Follows.bind_read (kernel_run _) ?_))
  split
  next operationId hnew => exact Follows.pure (hQ operationId (TextId.new_eq_ok.mp hnew))
  next error hnew =>
    refine Follows.raise (hE _ ?_)
    intro hroom
    obtain ⟨operationId, hok⟩ :=
      operationText_ok hroom.1 (isLabel_of_mem hlabel) (tick_counter_lt m.kernel)
    cases hnew.symm.trans hok

/-! ## Calling drivers -/

theorem Live.driver_ok (hlive : Live m st) (hget : m.kernel.changes[changeId]? = some change) :
    ∃ driver, m.kernel.capabilities.mutations[change.capabilityId]? = some driver ∧
      m.kernel.driverForRecord change = .ok driver := by
  obtain ⟨driver, hdriver, hprovider⟩ := (hlive.wellFormed hget).pinned
  refine ⟨driver, hdriver, ?_⟩
  simp [TransactionKernel.driverForRecord, TransactionKernel.driver, hdriver, hprovider, bind,
    Except.bind]

theorem callDriver_follows {β : Type} {method : W → Reply ProviderError β × W}
    {event : Reply ProviderError β → Call V} {Q : Except ProviderError β → Machine V W ω → Prop}
    (hcrashed : (event .crashed).crashed = true)
    (hanswers : ∀ reply w', method m.world = (reply, w') →
      Answers m.kernel.capabilities m.world (event reply) w')
    (hguarded : ∀ reply, Guarded m (event reply))
    (hQ : ∀ result w', Answers m.kernel.capabilities m.world (event (.answered result)) w' →
      (kernelSystem P).Steps m (m.called (event (.answered result)) w') →
      Q result (m.called (event (.answered result)) w')) :
    Follows (kernelSystem P) (callDriver method event) m Q E := by
  rcases hmethod : method m.world with ⟨reply, w'⟩
  have hanswer := hanswers reply w' hmethod
  have hstep : Step P m (m.called (event reply) w') := .call _ w' hanswer (hguarded reply)
  have hsteps : (kernelSystem P).Steps m (m.called (event reply) w') := .single hstep
  unfold Follows callDriver
  simp only [hmethod]
  cases reply with
  | crashed => exact ⟨m, .refl m, .inl ⟨_, w', hcrashed, hstep, rfl⟩⟩
  | answered result => exact ⟨hsteps, hQ result w' hanswer hsteps⟩

/-! ## Writing the log -/

/-- The record that `persist_change` writes. -/
def ChangeRecord.snapshot (change : ChangeRecord V) (state : ChangeState)
    (operationId : OperationId) (receipt : Option (MutationReceipt V)) (message : Option String)
    (markExperimentVerified : Bool) : ChangeRecord V :=
  { change with
    state := state
    lastOperationId := operationId
    lastReceipt := receipt
    message := message
    experimentVerified := markExperimentVerified || change.experimentVerified }

/-- How a program ends that appends an entry and then updates the memory. -/
def Machine.append (m : Machine V W ω) (event : WalEvent V)
    (failure : WalError → TransactionError)
    (f : TransactionKernel V W ω → TransactionKernel V W ω) :
    Reply WalError Unit × ω → Except (Halt TransactionError) Unit × Machine V W ω
  | (.crashed, wal) => (.error .crashed, m.appended event .crashed wal)
  | (.answered (.error error), wal) =>
    (.error (.error (failure error)), m.appended event (.answered (.error error)) wal)
  | (.answered (.ok ()), wal) =>
    (.ok (), (m.appended event (.answered (.ok ())) wal).update f)

theorem append_run (method : ω → WalEntry V → Reply WalError Unit × ω) (event : WalEvent V)
    (failure : WalError → TransactionError)
    (f : TransactionKernel V W ω → TransactionKernel V W ω) (m : Machine V W ω) :
    (do match ← callWal method event with
        | .error error => raise (failure error)
        | .ok () => updateKernel f : KernelM V W ω Unit) m =
      m.append event failure f (method m.kernel.wal (m.entry event)) := by
  rcases hanswer : method m.kernel.wal (m.entry event) with ⟨reply, wal⟩
  have hcall : callWal method event m = (match reply with
      | .crashed => .error .crashed
      | .answered result => .ok result, m.appended event reply wal) := by
    simp only [Machine.entry] at hanswer
    simp only [callWal, hanswer]
    cases reply <;> rfl
  rcases reply with _ | (error | ⟨⟩)
  · exact bind_error hcall
  · exact (bind_ok hcall).trans rfl
  · exact (bind_ok hcall).trans rfl

theorem LogWrite.putEntry_eq (w : LogWrite V) (m : Machine V W ω) :
    putEntry m.kernel.wal (m.entry w.event) =
      appendDurable m.kernel.wal (m.entry w.event) := by
  cases w <;> rfl

/-- What holds once the log has refused an entry. -/
def OnRefusal (P : Permit V W ω) (m : Machine V W ω) (event : WalEvent V)
    (E : TransactionError → Machine V W ω → Prop) : Prop :=
  ∀ e error wal, let m' := m.appended event (.answered (.error error)) wal
    (kernelSystem P).Steps m m' → E e m'

theorem append_follows {Q : Unit → Machine V W ω → Prop} {event : WalEvent V}
    {failure : WalError → TransactionError} {f : TransactionKernel V W ω → TransactionKernel V W ω}
    (hrun : p m = m.append event failure f (putEntry m.kernel.wal (m.entry event)))
    (hattempt : Attempt P m event)
    (hstep : ∀ wal, putEntry m.kernel.wal (m.entry event) = (.answered (.ok ()), wal) →
      Step P m ((m.appended event (.answered (.ok ())) wal).update f))
    (hQ : ∀ wal, let m' := (m.appended event (.answered (.ok ())) wal).update f
      (kernelSystem P).Steps m m' → Q () m') (hE : OnRefusal P m event E) :
    Follows (kernelSystem P) p m Q E := by
  unfold Follows
  rw [hrun]
  rcases hput : putEntry m.kernel.wal (m.entry event) with ⟨_ | (error | ⟨⟩), wal⟩
  · exact ⟨m, .refl m, .inr ⟨event, wal, hattempt, hput, rfl⟩⟩
  · have hrefuse : Step P m (m.appended event (.answered (.error error)) wal) :=
      .refuse event error wal hattempt hput
    exact ⟨.single hrefuse, hE _ error wal (.single hrefuse)⟩
  · have hanswered := hstep wal hput
    exact ⟨.single hanswered, hQ wal (.single hanswered)⟩

/-- An entry together with the update of the memory that goes with it. -/
theorem write_follows (w : LogWrite V) {Q : Unit → Machine V W ω → Prop}
    (hrun : p m = m.append w.event walError (fun k => k.write w)
      (appendDurable m.kernel.wal (m.entry w.event))) (hlive : Live m st)
    (hlawful : Lawful m.kernel.transactionId m.kernel.capabilities st w)
    (happlied : FinalizeApplied m.kernel w) (hwarranted : Warranted P m w)
    (hQ : ∀ wal, Live (m.written w wal) (w.replay st) →
      (kernelSystem P).Steps m (m.written w wal) → Q () (m.written w wal))
    (hE : OnRefusal P m w.event E) : Follows (kernelSystem P) p m Q E := by
  rw [← w.putEntry_eq] at hrun
  exact append_follows hrun (.write st w hlive hlawful happlied hwarranted)
    (fun wal => .write st w wal hlive hlawful happlied hwarranted)
    (fun wal => hQ wal (hlive.written hlawful happlied wal)) hE

theorem appendEvent_then_run (event : WalEvent V)
    (f : TransactionKernel V W ω → TransactionKernel V W ω) (m : Machine V W ω) :
    (do appendEvent event
        updateKernel f : KernelM V W ω Unit) m =
      m.append event walError (fun k => f { k with nextSequence := k.nextSequence + 1 })
        (appendDurable m.kernel.wal (m.entry event)) := by
  have hrun : appendEvent event m = m.append event walError _ _ :=
    append_run appendDurable event walError
      (fun k => { k with nextSequence := k.nextSequence + 1 }) m
  rcases happend : appendDurable m.kernel.wal (m.entry event) with
    ⟨_ | (error | ⟨⟩), wal⟩ <;> rw [happend] at hrun
  · exact bind_error hrun
  · exact bind_error hrun
  · exact (bind_ok hrun).trans rfl

theorem appendOperationIntent_follows {Q : Unit → Machine V W ω → Prop}
    {operation : OperationIntentKind} (hlive : Live m st)
    (hget : m.kernel.changes[changeId]? = some change)
    (happlied : operation = .finalize → change.state = .candidateApplied)
    (hlabel : ∃ n, operationId.value =
      operationText m.kernel.transactionId (intentLabel operation) n)
    (hQ : ∀ wal, let m' := m.written (.intend changeId operationId operation) wal
      Live m' (st.next.intend changeId operationId operation) →
      (kernelSystem P).Steps m m' → Q () m')
    (hE : OnRefusal P m (.operationIntent changeId operationId operation) E) :
    Follows (kernelSystem P) (appendOperationIntent changeId operationId operation) m Q E := by
  obtain ⟨logged, hlogged, _, _, hstate⟩ := hlive.tracks.logged hget
  refine write_follows (.intend changeId operationId operation) (append_run _ _ _ _ m) hlive ?_ ?_
    True.intro hQ hE
  · refine .intend hlogged ?_ hlabel
    intro hfinalize
    rcases hstate with hstate | ⟨hunknown, _⟩
    · rw [← hstate]
      exact happlied hfinalize
    · rw [happlied hfinalize] at hunknown
      cases hunknown
  · exact fun hfinalize => ⟨change, hget, happlied hfinalize⟩

/-- What must hold for a record of a change: it leaves verified states to verified heads, and the
trace and the world account for what it claims. -/
structure Recordable (P : Permit V W ω) (m : Machine V W ω) (changeId : ChangeId)
    (change : ChangeRecord V) (state : ChangeState) (mark : Bool) : Prop where
  plain : state ≠ .finalized ∧ state ≠ .intentDurable
  marked : mark = true → state = .appliedVerified
  verified : state.verified = true → m.kernel.resourceHeads[change.resource]? = some changeId ∧
    (mark || change.experimentVerified) = true
  rolled : state = .rolledBack → Holds m change.resource change.prepared.baseline.value
  first : change.experimentVerified = false → mark = true → FirstApplied m.trace changeId
  promote : state = .candidateApplied → change.state = .candidateApplied ∨ P.promote

theorem Recordable.unverified
    (hstate : state.verified = false ∧ (state ≠ .finalized ∧ state ≠ .intentDurable) ∧
      state ≠ .candidateApplied)
    (hrolled : state = .rolledBack → Holds m change.resource change.prepared.baseline.value) :
    Recordable P m changeId change state false where
  plain := hstate.2.1
  marked := nofun
  verified h := by
    rw [hstate.1] at h
    cases h
  rolled := hrolled
  first _ := nofun
  promote h := absurd h hstate.2.2

theorem Live.lawful_snapshot (hlive : Live m st) (hget : m.kernel.changes[changeId]? = some change)
    (h : Recordable P m changeId change state mark) (operationId : OperationId)
    (receipt : Option (MutationReceipt V)) (message : Option String) :
    Lawful m.kernel.transactionId m.kernel.capabilities st
      (.record (change.snapshot state operationId receipt message mark)) := by
  obtain ⟨logged, hlogged, hsame, hflag, _⟩ := hlive.tracks.logged hget
  have hform := hlive.wellFormed hget
  have hkey := hlive.table.keyed changeId change hget
  have hcontinues : Continues st logged
      (change.snapshot state operationId receipt message mark) := by
    refine ⟨?_, hsame, ?_, ?_, ?_, h.plain.1, h.plain.2⟩
    · change st.changes[change.changeId]? = some logged
      rw [hkey]
      exact hlogged
    · intro hold
      change (mark || change.experimentVerified) = true
      rw [hflag, hold, Bool.or_true]
    · intro hold hnew
      change (mark || change.experimentVerified) = true at hnew
      rw [hflag, hold, Bool.or_false] at hnew
      exact h.marked hnew
    · intro hneeds
      rw [← hlive.tracks.heads]
      change m.kernel.resourceHeads[change.resource]? = some change.changeId
      rw [hkey]
      exact (h.verified hneeds).1
  exact .record ⟨hform.transaction, hform.resource, hform.capability, hform.selfless,
    hform.baseline, hform.desired, hform.distinct, fun hneeds => (h.verified hneeds).2, hform.pinned⟩
    hcontinues

theorem persistChange_follows {Q : Unit → Machine V W ω → Prop}
    {receipt : Option (MutationReceipt V)} {message : Option String} (hlive : Live m st)
    (hget : m.kernel.changes[changeId]? = some change)
    (hrecord : Recordable P m changeId change state mark)
    (hQ : ∀ wal,
      let m' := m.written (.record (change.snapshot state operationId receipt message mark)) wal
      Live m' (st.next.recordChange (change.snapshot state operationId receipt message mark)) →
      (kernelSystem P).Steps m m' → Q () m')
    (hE : OnRefusal P m
      (.changeUpsert (change.snapshot state operationId receipt message mark)) E) :
    Follows (kernelSystem P) (persistChange changeId state operationId receipt message mark)
      m Q E := by
  have hkey := hlive.table.keyed changeId change hget
  have hrun : persistChange changeId state operationId receipt message mark m =
      m.append (.changeUpsert (change.snapshot state operationId receipt message mark)) walError
        (fun k => k.write (.record (change.snapshot state operationId receipt message mark)))
        (appendDurable m.kernel.wal (m.entry
          (.changeUpsert (change.snapshot state operationId receipt message mark)))) := by
    refine (bind_ok (kernel_run m)).trans ?_
    rw [hget]
    refine (appendEvent_then_run _ _ m).trans ?_
    subst hkey
    rfl
  refine write_follows (.record (change.snapshot state operationId receipt message mark)) hrun hlive
    (hlive.lawful_snapshot hget hrecord operationId receipt message) True.intro
    ⟨hrecord.rolled, ?_⟩ hQ hE
  intro old hold
  change m.kernel.changes[change.changeId]? = some old at hold
  rw [hkey, hget] at hold
  cases hold
  refine ⟨?_, hrecord.promote⟩
  intro hunverified hnew
  change (mark || change.experimentVerified) = true at hnew
  rw [hunverified, Bool.or_false] at hnew
  change FirstApplied m.trace change.changeId
  rw [hkey]
  exact hrecord.first hunverified hnew

theorem createChange_follows {Q : Unit → Machine V W ω → Prop} (hlive : Live m st)
    (hform : WellFormed m.kernel.transactionId m.kernel.capabilities change)
    (hopens : Opens st change)
    (hholds : Holds m change.resource change.prepared.baseline.value)
    (hQ : ∀ wal, Live (m.written (.create change) wal) (st.next.createChange change) →
      (kernelSystem P).Steps m (m.written (.create change) wal) →
      Q () (m.written (.create change) wal))
    (hE : OnRefusal P m (.changeUpsert change) E) :
    Follows (kernelSystem P) (createChange change) m Q E :=
  write_follows (.create change) (appendEvent_then_run _ _ m) hlive (.create hform hopens)
    True.intro hholds hQ hE

theorem sealWith_follows {Q : Unit → Machine V W ω → Prop} (hlive : Live m st)
    (hrolled : ∀ (changeId : ChangeId) change, m.kernel.changes[changeId]? = some change →
      change.state = .rolledBack)
    (hQ : ∀ wal,
      let m' := (m.appended (.sealed .rolledBack) (.answered (.ok ())) wal).update fun k =>
        k.sealAs .rolledBack
      (kernelSystem P).Steps m m' → Q () m')
    (hE : OnRefusal P m (.sealed .rolledBack) E) :
    Follows (kernelSystem P) (sealWith .rolledBack) m Q E := by
  have hattempt : Attempt P m (.sealed .rolledBack) := .roll st hlive hrolled
  exact append_follows (append_run sealEntry _ _ _ m) hattempt
    (fun wal => .roll wal hattempt) hQ hE

theorem commitSeal_follows {Q : Unit → Machine V W ω → Prop} {candidate : Candidate}
    {authorization : CommitAuthorization} (hlive : Live m st)
    (hvalid : m.kernel.validateCandidate candidate = .ok ())
    (hpermit : P.commit m authorization candidate)
    (hQ : ∀ wal,
      let terminal := m.kernel.allChanges.map (terminalOf candidate)
      let m' := (m.appended (.commitSealed authorization terminal) (.answered (.ok ())) wal).update
        fun k => k.commit authorization terminal
      (kernelSystem P).Steps m m' → Q () m')
    (hE : OnRefusal P m
      (.commitSealed authorization (m.kernel.allChanges.map (terminalOf candidate))) E) :
    Follows (kernelSystem P)
      (commitSeal authorization (m.kernel.allChanges.map (terminalOf candidate))) m Q E :=
  append_follows (append_run sealEntry _ _ _ m)
    (.commit st candidate authorization hlive hvalid hpermit)
    (fun wal => .commit st candidate authorization wal hlive hvalid hpermit) hQ hE

end Steps

end ScxAgent
