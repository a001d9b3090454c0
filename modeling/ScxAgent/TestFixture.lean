import ScxAgent.RunInvariants

/-!
# The fixture of the kernel's tests

The fake driver and the in-memory log of the tests in `kernel/transaction/kernel.rs`, with a
script of faults for each. The driver is honest and the log is all or nothing, so runs on
the fixture show what the general results say about one concrete transaction.
-/

namespace ScxAgent.TestFixture

open Std StepLogic Function

/-! ## Values and digests -/

/-- The JSON values of the tests: a null, a text, and the arguments of a mutation. -/
inductive Json where
  | null
  | text (value : String)
  | mutation (resource : ResourceKey) (value : String)
  deriving DecidableEq

instance : Inhabited Json := ⟨.null⟩

def Json.encode : Json → String
  | .null => "null"
  | .text value => jsonText value
  | .mutation resource value =>
    "\x7b\"resource\":" ++ jsonText resource.value ++ ",\"value\":" ++ jsonText value ++ "\x7d"

instance : Serialize Json where
  toVec value := .ok value.encode.toUTF8.toList

/-- SHA-256 of the texts that the runs on the fixture hash. -/
def knownDigests : List (String × Vector UInt8 32) :=
  [("\"old\"", #v[214, 209, 48, 20, 239, 24, 212, 80, 48, 238, 198, 172, 10, 102, 234, 181,
      146, 231, 240, 126, 31, 237, 169, 53, 56, 147, 91, 59, 67, 74, 141, 232]),
    ("\"new\"", #v[128, 39, 14, 57, 171, 90, 142, 80, 249, 73, 177, 40, 126, 148, 50, 206,
      247, 35, 232, 67, 150, 64, 86, 239, 4, 225, 241, 133, 164, 211, 179, 1]),
    ("\"other\"", #v[212, 72, 192, 224, 246, 93, 167, 148, 142, 62, 219, 120, 5, 181, 39, 43,
      84, 247, 95, 66, 124, 51, 51, 49, 87, 50, 75, 98, 111, 92, 165, 31]),
    ("[\"change/a\"]", #v[127, 5, 33, 109, 162, 23, 93, 171, 99, 44, 194, 176, 89, 71, 44, 16,
      159, 155, 70, 90, 97, 163, 124, 19, 113, 166, 145, 81, 97, 227, 110, 179]),
    ("[\"change/b\"]", #v[81, 74, 4, 50, 88, 1, 62, 81, 194, 21, 156, 126, 119, 10, 12, 125,
      250, 98, 208, 47, 44, 64, 22, 107, 70, 176, 163, 28, 112, 217, 56, 20]),
    ("[\"change/a\",\"change/b\"]", #v[105, 179, 184, 35, 231, 53, 215, 49, 231, 89, 101, 24,
      252, 55, 34, 44, 35, 123, 4, 254, 16, 249, 225, 23, 70, 205, 25, 238, 186, 80, 25, 196])]

scoped instance : Sha256 where
  digest bytes :=
    match knownDigests.find? fun known => known.1.toUTF8.toList = bytes with
    | some known => known.2
    | none => Vector.replicate 32 0

/-! ## The log -/

inductive WalFault where
  | pass
  | refuse
  | crashLost
  | crashStored

structure MemoryWal (V : Type) where
  entries : List (WalEntry V)
  sealed : Bool
  faults : List WalFault
  bounded : entries.length < 2 ^ 64

namespace MemoryWal

variable {V : Type}

def empty (faults : List WalFault) : MemoryWal V := ⟨[], false, faults, Nat.two_pow_pos 64⟩

/-- Stores the entry unless the log is full. -/
def push (wal : MemoryWal V) (entry : WalEntry V) : Option (MemoryWal V) :=
  if h : wal.entries.length + 1 < 2 ^ 64 then
    some ⟨wal.entries ++ [entry], wal.sealed, wal.faults.tail, by simpa using h⟩
  else none

def appendDurable (wal : MemoryWal V) (entry : WalEntry V) :
    Reply WalError Unit × MemoryWal V :=
  let skipped := { wal with faults := wal.faults.tail }
  if wal.sealed then (.answered (.error ⟨"sealed"⟩), wal)
  else match wal.push entry with
  | none => (.answered (.error ⟨"full"⟩), wal)
  | some stored =>
    match wal.faults.head? with
    | none | some .pass => (.answered (.ok ()), stored)
    | some .refuse => (.answered (.error ⟨"injected durable append failure"⟩), skipped)
    | some .crashLost => (.crashed, skipped)
    | some .crashStored => (.crashed, stored)

def sealEntry (wal : MemoryWal V) (entry : WalEntry V) : Reply WalError Unit × MemoryWal V :=
  match wal.appendDurable entry with
  | (.answered (.ok ()), stored) => (.answered (.ok ()), { stored with sealed := true })
  | failed => failed

instance : TransactionWal V (MemoryWal V) where
  appendDurable := appendDurable
  load wal := .ok wal.entries
  sealEntry := sealEntry

/-- An append stores the entry or, without acknowledging it, nothing. -/
theorem appendDurable_entries (wal : MemoryWal V) (entry : WalEntry V) :
    (wal.appendDurable entry).2.entries = wal.entries ++ [entry] ∧
        (∀ error, (wal.appendDurable entry).1 ≠ .answered (.error error)) ∨
      (wal.appendDurable entry).2.entries = wal.entries ∧
        (wal.appendDurable entry).1 ≠ .answered (.ok ()) := by
  have hpush : ∀ stored, wal.push entry = some stored → stored.entries = wal.entries ++ [entry] := by
    intro stored h
    unfold push at h
    split at h
    · cases h
      rfl
    · cases h
  unfold appendDurable
  split
  · exact .inr ⟨rfl, nofun⟩
  · split
    · exact .inr ⟨rfl, nofun⟩
    · rename_i stored hstored
      split
      · exact .inl ⟨hpush stored hstored, nofun⟩
      · exact .inl ⟨hpush stored hstored, nofun⟩
      · exact .inr ⟨rfl, nofun⟩
      · exact .inr ⟨rfl, nofun⟩
      · exact .inl ⟨hpush stored hstored, nofun⟩

theorem sealEntry_eq (wal : MemoryWal V) (entry : WalEntry V) :
    (wal.sealEntry entry).1 = (wal.appendDurable entry).1 ∧
      (wal.sealEntry entry).2.entries = (wal.appendDurable entry).2.entries := by
  unfold sealEntry
  rcases wal.appendDurable entry with ⟨_ | (error | ⟨⟩), stored⟩ <;> exact ⟨rfl, rfl⟩

theorem putEntry_entries {wal wal' : MemoryWal V} {entry : WalEntry V} {reply : Reply WalError Unit}
    (h : putEntry wal entry = (reply, wal')) :
    wal'.entries = wal.entries ++ [entry] ∧ (∀ error, reply ≠ .answered (.error error)) ∨
      wal'.entries = wal.entries ∧ reply ≠ .answered (.ok ()) := by
  have hput : (putEntry wal entry).1 = (wal.appendDurable entry).1 ∧
      (putEntry wal entry).2.entries = (wal.appendDurable entry).2.entries := by
    unfold putEntry
    split
    · exact wal.sealEntry_eq entry
    · exact ⟨rfl, rfl⟩
  rw [h] at hput
  obtain ⟨rfl, hentries⟩ : reply = (wal.appendDurable entry).1 ∧
    wal'.entries = (wal.appendDurable entry).2.entries := hput
  rw [hentries]
  exact wal.appendDurable_entries entry

theorem allOrNothing : AllOrNothing (MemoryWal V) where
  loaded := by
    intro wal wal' entry reply entries' hput hload
    cases hload
    rcases putEntry_entries hput with ⟨hstored, _⟩ | ⟨hlost, hreply⟩
    · exact ⟨wal.entries, rfl, .inl hstored⟩
    · exact ⟨wal.entries, rfl, .inr ⟨hreply, hlost⟩⟩
  appended := by
    intro wal wal' entry entries hload hput
    cases hload
    rcases putEntry_entries hput with ⟨hstored, _⟩ | ⟨_, hreply⟩
    · exact congrArg Except.ok hstored
    · exact absurd rfl hreply
  refused := by
    intro wal wal' entry entries error hload hput
    cases hload
    rcases putEntry_entries hput with ⟨_, hreply⟩ | ⟨hlost, _⟩
    · exact absurd rfl (hreply error)
    · exact congrArg Except.ok hlost
  crashed := by
    intro wal wal' entry entries hload hput
    cases hload
    rcases putEntry_entries hput with ⟨hstored, _⟩ | ⟨hlost, _⟩
    · exact .inr (congrArg Except.ok hstored)
    · exact .inl (congrArg Except.ok hlost)
  bounded := by
    intro wal entries hload
    cases hload
    exact wal.bounded

end MemoryWal

/-! ## The driver -/

/-- What happens to an effect: it is made or not, and its answer arrives, is an error, or is
overtaken by a crash. -/
inductive EffectFault where
  | pass
  | lost
  | failed
  | crash
  | crashAfter

structure FakeWorld where
  current : ResourceKey → Json
  faults : List EffectFault

def lostResponse : ProviderError := ⟨.timeout, "response lost", true⟩

def FakeWorld.effect (w : FakeWorld) (written : ResourceKey → Json)
    (receipt : MutationReceipt Json) : Reply ProviderError (MutationReceipt Json) × FakeWorld :=
  match w.faults.head? with
  | none | some .pass => (.answered (.ok receipt), ⟨written, w.faults.tail⟩)
  | some .lost => (.answered (.error lostResponse), ⟨written, w.faults.tail⟩)
  | some .failed => (.answered (.error lostResponse), ⟨w.current, w.faults.tail⟩)
  | some .crash => (.crashed, ⟨w.current, w.faults.tail⟩)
  | some .crashAfter => (.crashed, ⟨written, w.faults.tail⟩)

theorem FakeWorld.effect_current (w : FakeWorld) (written : ResourceKey → Json)
    (receipt : MutationReceipt Json) :
    (w.effect written receipt).2.current = written ∨
      (w.effect written receipt).2.current = w.current ∧
        ∀ answer, (w.effect written receipt).1 ≠ .answered (.ok answer) := by
  unfold FakeWorld.effect
  split
  · exact .inl rfl
  · exact .inl rfl
  · exact .inl rfl
  · exact .inr ⟨rfl, by simp⟩
  · exact .inr ⟨rfl, by simp⟩
  · exact .inl rfl

def stateOf (value : Json) : Except String (MutationState Json) := do
  return ⟨value, ← contentDigest value⟩

def testProvider : ProviderPin where
  providerId := ⟨"test.provider", testProvider_valid⟩
  providerVersion := ⟨"1.0.0", version_valid⟩
  providerClass := .localHost
  manifestDigest := ⟨"test-provider-manifest", by decide +kernel⟩

def testCapability : CapabilityId := ⟨"test/mutation", by decide +kernel⟩

def receiptOf (operationId : OperationId) (state : MutationOperationState)
    (observed : MutationState Json) : MutationReceipt Json :=
  ⟨operationId, state, some observed, .null⟩

def fakeDriver : MutationDriver Json FakeWorld where
  capabilityMeta := ⟨testProvider⟩
  prepare request w :=
    match request.arguments with
    | .mutation resource value =>
      match stateOf (w.current resource), stateOf (.text value) with
      | .ok baseline, .ok desired =>
        (.answered (.ok ⟨testCapability, testProvider, resource, baseline, desired, .null⟩), w)
      | _, _ => (.answered (.error ⟨.internal, "state has no digest", false⟩), w)
    | _ => (.answered (.error ⟨.invalidRequest, "mutation arguments expected", false⟩), w)
  apply request w :=
    w.effect (Function.update w.current request.prepared.resource request.prepared.desired.value)
      (receiptOf request.operationId .applied request.prepared.desired)
  status query w := (.answered (.ok ⟨query.operationId, .unknown, none, .null⟩), w)
  verify request w :=
    let observed := w.current request.prepared.resource
    (.answered (.ok ⟨decide (observed = request.expected.value), (stateOf observed).toOption,
      .null⟩), w)
  restore request w :=
    w.effect (Function.update w.current request.prepared.resource request.prepared.baseline.value)
      (receiptOf request.operationId .restored request.prepared.baseline)
  finalize request w :=
    w.effect w.current (receiptOf request.operationId .finalized request.prepared.desired)

def testSnapshot : CapabilitySnapshot Json FakeWorld where
  generation := 1
  metadata := (∅ : TreeMap CapabilityId CapabilityMeta).insert testCapability ⟨testProvider⟩
  mutations := (∅ : TreeMap CapabilityId (MutationDriver Json FakeWorld)).insert testCapability
    fakeDriver
  registered := by
    intro id driver hget
    rw [getElem?_insert_eq] at hget ⊢
    split_ifs at hget ⊢
    · cases hget
      rfl
    · simp at hget

theorem testSnapshot_driver {id : CapabilityId} {driver : MutationDriver Json FakeWorld}
    (h : testSnapshot.mutations[id]? = some driver) : driver = fakeDriver := by
  change ((∅ : TreeMap CapabilityId (MutationDriver Json FakeWorld)).insert testCapability
    fakeDriver)[id]? = some driver at h
  rw [getElem?_insert_eq] at h
  split_ifs at h
  · exact (Option.some.inj h).symm
  · simp at h

theorem stateOf_value {value : Json} {state : MutationState Json} (h : stateOf value = .ok state) :
    state.value = value := by
  unfold stateOf at h
  cases hdigest : contentDigest value with
  | error e =>
    rw [hdigest] at h
    cases h
  | ok digest =>
    rw [hdigest] at h
    cases h
    rfl

theorem effect_nothing (w : FakeWorld) (receipt : MutationReceipt Json) :
    (w.effect w.current receipt).2.current = w.current := by
  rcases w.effect_current w.current receipt with h | ⟨h, _⟩
  · exact h
  · exact h

theorem effect_elsewhere (w : FakeWorld) (resource other : ResourceKey) (value : Json)
    (receipt : MutationReceipt Json) (hne : other ≠ resource) :
    (w.effect (update w.current resource value) receipt).2.current other =
      w.current other := by
  rcases w.effect_current (update w.current resource value) receipt with h | ⟨h, _⟩
  · rw [h, update_of_ne hne]
  · rw [h]

theorem effect_whole (w : FakeWorld) (resource : ResourceKey) (value : Json)
    (receipt : MutationReceipt Json) :
    (w.effect (update w.current resource value) receipt).2.current resource =
        w.current resource ∨
      (w.effect (update w.current resource value) receipt).2.current resource = value := by
  rcases w.effect_current (update w.current resource value) receipt with h | ⟨h, _⟩
  · right
    rw [h, update_self]
  · left
    rw [h]

theorem effect_answered {w : FakeWorld} {resource : ResourceKey} {value : Json}
    {receipt answer : MutationReceipt Json}
    (h : (w.effect (update w.current resource value) receipt).1 =
      .answered (.ok answer)) :
    (w.effect (update w.current resource value) receipt).2.current resource = value := by
  rcases w.effect_current (update w.current resource value) receipt with hmade | ⟨_, hno⟩
  · rw [hmade, update_self]
  · exact absurd h (hno answer)

theorem testSnapshot_honest : Honest FakeWorld.current testSnapshot where
  prepare := by
    intro id driver hdriver request w
    cases testSnapshot_driver hdriver
    simp only [fakeDriver]
    split
    · rename_i resource value _
      split
      · rename_i baseline desired hbaseline _
        refine ⟨rfl, ?_⟩
        intro prepared hprepared
        cases hprepared
        exact stateOf_value hbaseline
      · exact ⟨rfl, by simp⟩
    · exact ⟨rfl, by simp⟩
  verify := by
    intro id driver hdriver request w
    cases testSnapshot_driver hdriver
    refine ⟨rfl, ?_⟩
    intro verification hverification
    cases hverification
    rfl
  status := by
    intro id driver hdriver query w
    cases testSnapshot_driver hdriver
    rfl
  apply := by
    intro id driver hdriver request w resource hne
    cases testSnapshot_driver hdriver
    exact effect_elsewhere w _ _ _ _ hne
  restore := by
    intro id driver hdriver request w resource hne
    cases testSnapshot_driver hdriver
    exact effect_elsewhere w _ _ _ _ hne
  finalize := by
    intro id driver hdriver request w resource hne
    cases testSnapshot_driver hdriver
    exact congrFun (effect_nothing w _) resource
  applyWhole := by
    intro id driver hdriver request w
    cases testSnapshot_driver hdriver
    exact effect_whole w _ _ _
  restoreWhole := by
    intro id driver hdriver request w
    cases testSnapshot_driver hdriver
    exact effect_whole w _ _ _
  restored := by
    intro id driver hdriver request w receipt hanswer _
    cases testSnapshot_driver hdriver
    exact effect_answered hanswer
  finalizeNothing := by
    intro id driver hdriver request w
    cases testSnapshot_driver hdriver
    exact effect_nothing w _

/-! ## The transaction -/

def transactionId : TransactionId := ⟨"transaction/test", by decide +kernel⟩

def resourceA : ResourceKey := ⟨"resource/a", by decide +kernel⟩
def changeA : ChangeId := ⟨"change/a", changeA_valid⟩
def changeB : ChangeId := ⟨"change/b", by decide +kernel⟩

def intentPin : EvaluationIntentPin where
  episodeId := ⟨1⟩
  intentDigest := ⟨"test-intent", by decide +kernel⟩
  contractDigest := ⟨"test-contract", by decide +kernel⟩

def world (faults : List EffectFault) : FakeWorld := ⟨fun _ => .text "old", faults⟩

abbrev TestCall := PublicCall Json
abbrev TestStage := Stage Json FakeWorld (MemoryWal Json)

def tryA : TestCall := .experiment changeA testCapability (.mutation resourceA "new")
/-- A second change on the resource of the first one. -/
def revise : TestCall := .experiment changeB testCapability (.mutation resourceA "other")

/-- The stage that a script of calls leads to from the start of a transaction, under scripts of
faults for the log and for the driver. -/
def runTest (transactionId : TransactionId) (walFaults : List WalFault)
    (effectFaults : List EffectFault) (calls : List TestCall) : Option TestStage := do
  let start ← Stage.start transactionId intentPin testSnapshot (MemoryWal.empty walFaults)
    (world effectFaults)
  calls.foldlM Stage.act start

theorem reachable_runTest {env : FakeWorld → FakeWorld → Prop} {transactionId : TransactionId}
    {walFaults : List WalFault} {effectFaults : List EffectFault} {calls : List TestCall}
    {s : TestStage} (h : runTest transactionId walFaults effectFaults calls = some s) :
    Reachable env (world effectFaults) s ∧ s.machine.kernel.transactionId = transactionId ∧
      s.machine.kernel.intentPin = intentPin ∧ s.machine.kernel.capabilities = testSnapshot := by
  obtain ⟨start, hstart, hcalls⟩ := Option.bind_eq_some_iff.mp h
  obtain ⟨htransaction, hpin, hcapabilities⟩ := Stage.setting_of_start hstart
  rw [← htransaction, ← hpin, ← hcapabilities]
  exact Stage.reachable_of_acts MemoryWal.allOrNothing.toAppendOnly calls
    (Stage.reachable_of_start hstart) hcalls

end ScxAgent.TestFixture
