import ScxAgent.Identifiers
import ScxAgent.Scheduler.Contexts

/-!
# Command names, rule classes and rule states

The values that rules are made of, shared by the rule store, the control protocol and the activation
of the tuning agent. A `Comm` carries the proof that `validateComm` accepts it; its key in the BPF
maps is padded with zero bytes, and no two names have the same key.
-/

namespace ScxAgent.Rules

open List

def maxCommBytes : ℕ := 15

/-- `str::as_bytes`. -/
def asBytes (s : String) : List UInt8 := s.toByteArray.data.toList

theorem asBytes_length (s : String) : (asBytes s).length = s.utf8ByteSize := rfl

theorem asBytes_injective {s t : String} (h : asBytes s = asBytes t) : s = t :=
  String.toByteArray_inj.mp (ByteArray.ext (Array.toList_inj.mp h))

def validateComm (comm : String) : Except String Unit :=
  if comm.isEmpty then .error "comm must not be empty"
  else if comm.utf8ByteSize > maxCommBytes then
    .error s!"comm '{comm}' is {comm.utf8ByteSize} bytes; Linux comm supports at most {maxCommBytes}"
  else if (asBytes comm).contains 0 then .error "comm must not contain a NUL byte"
  else if comm.toList.any isControl then .error "comm must not contain control characters"
  else .ok ()

theorem utf8ByteSize_of_validateComm {comm : String} (h : validateComm comm = .ok ()) :
    comm.utf8ByteSize ≤ maxCommBytes := by
  unfold validateComm at h
  split_ifs at h with hempty hsize
  exact not_lt.mp hsize

theorem ne_zero_of_validateComm {comm : String} (h : validateComm comm = .ok ()) :
    ∀ b ∈ asBytes comm, b ≠ 0 := by
  unfold validateComm at h
  split_ifs at h with hempty hsize hzero
  rintro b hb rfl
  exact hzero (contains_iff_mem.mpr hb)

structure Comm where
  value : String
  valid : validateComm value = .ok ()
  deriving DecidableEq

namespace Comm

instance : ToString Comm := ⟨value⟩

instance : Ord Comm := ⟨compareOn value⟩

instance : Std.TransOrd Comm := inferInstanceAs (Std.TransCmp (compareOn value))

theorem ext_value {a b : Comm} (h : a.value = b.value) : a = b := by
  cases a
  cases b
  cases h
  rfl

instance : Std.LawfulEqOrd Comm where
  eq_of_compare h := ext_value (Std.LawfulEqOrd.eq_of_compare h)

def new (value : String) : Except String Comm :=
  match h : validateComm value with
  | .ok () => .ok ⟨value, h⟩
  | .error message => .error message

theorem new_eq_ok {value : String} {comm : Comm} : new value = .ok comm ↔ comm.value = value := by
  constructor
  · intro h
    unfold new at h
    split at h
    · cases h
      rfl
    · cases h
  · rintro rfl
    unfold new
    split
    · rfl
    · rename_i message hbad
      rw [comm.valid] at hbad
      cases hbad

/-- The name without its terminating zero, padded with zeros to the length of the key. -/
def asBpfKey (comm : Comm) : Scheduler.RuleKey := fun i => (asBytes comm.value)[i.val]?.getD 0

theorem length_le (comm : Comm) : (asBytes comm.value).length ≤ 15 := by
  rw [asBytes_length]
  exact utf8ByteSize_of_validateComm comm.valid

/-- The key is zero exactly behind the name. -/
theorem asBpfKey_eq_zero {comm : Comm} {i : Fin 16} :
    comm.asBpfKey i = 0 ↔ (asBytes comm.value).length ≤ i := by
  unfold asBpfKey
  constructor
  · intro hzero
    by_contra hlt
    rw [getElem?_eq_getElem (not_le.mp hlt), Option.getD_some] at hzero
    exact ne_zero_of_validateComm comm.valid _ (getElem_mem _) hzero
  · intro hle
    rw [getElem?_eq_none hle, Option.getD_none]

theorem asBpfKey_injective : Function.Injective asBpfKey := by
  intro a b hkey
  -- the first zero of the key gives the length of the name
  have hzero : ∀ i : Fin 16,
      (asBytes a.value).length ≤ i ↔ (asBytes b.value).length ≤ i := fun i => by
    rw [← asBpfKey_eq_zero, ← asBpfKey_eq_zero, hkey]
  have hlength : (asBytes a.value).length = (asBytes b.value).length := by
    have ha := hzero ⟨_, Nat.lt_succ_of_le a.length_le⟩
    have hb := hzero ⟨_, Nat.lt_succ_of_le b.length_le⟩
    simp only [le_refl, true_iff, iff_true] at ha hb
    omega
  refine ext_value (asBytes_injective (ext_getElem? fun i => ?_))
  by_cases hi : i < (asBytes a.value).length
  · have hbyte := congrFun hkey ⟨i, by have := a.length_le; omega⟩
    simp only [asBpfKey, getElem?_eq_getElem hi, getElem?_eq_getElem (hlength ▸ hi),
      Option.getD_some] at hbyte
    rw [getElem?_eq_getElem hi, getElem?_eq_getElem (hlength ▸ hi), hbyte]
  · rw [getElem?_eq_none (not_lt.mp hi), getElem?_eq_none (hlength ▸ not_lt.mp hi)]

end Comm

/-- The class of a rule; the control protocol and the rule store spell it alike. -/
inductive RuleClass where
  | latency
  | batch
  deriving DecidableEq, Repr

namespace RuleClass

def asBpfId : RuleClass → UInt32
  | .latency => 0
  | .batch => 1

/-- The class that an identifier read from the rules map stands for. -/
def ofBpfId (id : UInt32) : Option RuleClass :=
  if id = 0 then some .latency else if id = 1 then some .batch else none

@[simp] theorem ofBpfId_asBpfId (k : RuleClass) : ofBpfId k.asBpfId = some k := by
  cases k <;> rfl

end RuleClass

inductive RuleState where
  | absent
  | present (k : RuleClass)
  deriving DecidableEq, Repr

namespace RuleState

def fromOption : Option RuleClass → RuleState
  | some k => .present k
  | none => .absent

def toClass : RuleState → Option RuleClass
  | .absent => none
  | .present k => some k

@[simp] theorem toClass_fromOption (k : Option RuleClass) : (fromOption k).toClass = k := by
  cases k <;> rfl

@[simp] theorem fromOption_toClass (state : RuleState) : fromOption state.toClass = state := by
  cases state <;> rfl

end RuleState

theorem ffmpeg_valid : validateComm "ffmpeg" = .ok () := by decide +kernel

end ScxAgent.Rules
