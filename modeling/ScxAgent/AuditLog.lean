import ScxAgent.Evaluation.Measurement
import ScxAgent.JsonTreeText
import ScxAgent.Segments
import ScxAgent.Utf8
import ScxAgent.Wal.FileWal

/-!
# The audit log

`JsonlAuditSink` of `audit/sink.rs` appends each record as one line of JSON. A call that fails may
leave any part of its line behind, and the next call goes on where that part ends.
-/

namespace ScxAgent.Audit

open JsonTree Segments Evaluation List JsonLibrary

variable {F : Type}

/-! ## Records -/

def phaseName : EpisodePhase → String
  | .clean => "clean"
  | .experimenting => "experimenting"
  | .commitPending => "commit_pending"
  | .rollingBack => "rolling_back"
  | .recoveryRequired => "recovery_required"
  | .committed => "committed"

def phases : List (String × EpisodePhase) :=
  [EpisodePhase.clean, .experimenting, .commitPending, .rollingBack, .recoveryRequired,
    .committed].map fun phase => (phaseName phase, phase)

structure AuditRecord (F : Type) where
  timestampNs : BitVec 128
  event : String
  episodeId : Option (BitVec 64)
  phase : Option EpisodePhase
  data : JsonTree F

namespace AuditRecord

def encode (record : AuditRecord F) : JsonTree F :=
  .obj ([("timestamp_ns", .int record.timestampNs.toNat), ("event", .str record.event)] ++
    encodeMember "episode_id" (fun id => .int id.toNat) record.episodeId ++
    encodeMember "phase" (fun phase => .str (phaseName phase)) record.phase ++
    [("data", record.data)])

def decode (tree : JsonTree F) : Except String (AuditRecord F) := do
  let timestampNs ← required "timestamp_ns" (unsigned 128) tree
  let event ← required "event" text tree
  let episodeId ← optional "episode_id" (unsigned 64) tree
  let phase ← optional "phase" (variant phases) tree
  let data ← required "data" .ok tree
  return ⟨timestampNs, event, episodeId, phase, data⟩

theorem variant_phaseName (phase : EpisodePhase) :
    variant phases (.str (phaseName phase) : JsonTree F) = .ok phase := by
  cases phase <;> rfl

theorem decode_encode (record : AuditRecord F) : decode record.encode = .ok record := by
  obtain ⟨timestampNs, event, episodeId, phase, data⟩ := record
  cases episodeId <;> cases phase <;>
    simp [decode, encode, encodeMember, required, JsonTree.optional, field, nullable, unsigned_toNat, text,
      variant_phaseName, bind, Except.bind, pure, Except.pure]

theorem floats_encode (record : AuditRecord F) : record.encode.floats = record.data.floats := by
  obtain ⟨timestampNs, event, episodeId, phase, data⟩ := record
  cases episodeId <;> cases phase <;> simp [encode, encodeMember, floats, memberFloats]

end AuditRecord

/-! ## The sink -/

variable [JsonLibrary F]

def newline : UInt8 := 10

/-- A record to write, and where its call fails if it does. -/
structure Call (F : Type) where
  record : AuditRecord F
  fault : Option FileWal.WriteFault

def Call.written (call : Call F) : List UInt8 :=
  let line := Utf8.encode (JsonLibrary.print call.record.encode) ++ [newline]
  match call.fault with
  | none => line
  | some fault => line.take fault.written

/-- `JsonlAuditSink::record`, with the file after it. -/
def record (file : List UInt8) (call : Call F) : Except String Unit × List UInt8 :=
  (match call.fault with
    | none => .ok ()
    | some fault => .error fault.reason, file ++ call.written)

def recordAll (file : List UInt8) (calls : List (Call F)) : List UInt8 :=
  calls.foldl (fun file call => (record file call).2) file

/-- The records of the calls that return `Ok`. -/
def accepted (calls : List (Call F)) : List (AuditRecord F) :=
  (calls.filter (·.fault.isNone)).map (·.record)

def readLine (line : List UInt8) : Option (AuditRecord F) := do
  let tree ← (JsonLibrary.parse (← Utf8.decode line)).toOption
  (AuditRecord.decode tree).toOption

/-- The records of the file, one for each line, as far as it can be read. The flag says that the line
is ended. -/
def readAll (F : Type) [JsonLibrary F] (file : List UInt8) : List (Option (AuditRecord F) × Bool) :=
  (segments newline file).map fun segment => (readLine segment.1, segment.2)

/-- A call that succeeds begins a line, and the numbers in its record are read as they were
written. -/
def Undamaged (file : List UInt8) : List (Call F) → Prop
  | [] => True
  | call :: calls =>
    (call.fault = none → Ended newline file ∧
      ∀ x ∈ call.record.data.floats, JsonLibrary.drift x = x) ∧
    Undamaged (record file call).2 calls

/-! ## What is read back -/

theorem recordAll_eq (file : List UInt8) (calls : List (Call F)) :
    recordAll file calls = file ++ calls.flatMap Call.written := by
  induction calls generalizing file with
  | nil => rw [flatMap_nil, append_nil]; rfl
  | cons call calls ih =>
    rw [flatMap_cons, ← append_assoc]
    exact ih (file ++ call.written)

variable [LawfulJsonLibrary F]

theorem newline_notMem (tree : JsonTree F) : newline ∉ Utf8.encode (print tree) := by
  intro hmem
  obtain ⟨c, hc, hcode⟩ := Utf8.exists_char_of_mem (by decide) hmem
  have hc' : c = '\n' := Char.ext (UInt32.toNat_inj.mp hcode)
  exact (LawfulJsonLibrary.one_line tree).1 (hc' ▸ hc)

theorem readLine_print (record : AuditRecord F)
    (hfloats : ∀ x ∈ record.data.floats, drift x = x) :
    readLine (Utf8.encode (print record.encode)) = some record := by
  have hencode : record.encode.mapFloat drift = record.encode := by
    rw [mapFloat_eq_self_iff, AuditRecord.floats_encode]
    exact hfloats
  rw [readLine, Utf8.decode_encode, Option.bind_eq_bind, Option.bind_some,
    LawfulJsonLibrary.parse_print, hencode]
  simp [Except.toOption, AuditRecord.decode_encode]

/-- `lines` are the lines that are done, `left` what stands after them. A call that succeeds ends
what is left, and its line is the next one. -/
theorem accepted_sublist {lines left : List UInt8} {calls : List (Call F)}
    (hlines : Ended newline lines) (h : Undamaged (lines ++ left) calls) :
    ((accepted calls).map fun record => (some record, true)).Sublist
      (readAll F (left ++ calls.flatMap Call.written)) := by
  induction calls generalizing lines left with
  | nil => exact nil_sublist _
  | cons call calls ih =>
    obtain ⟨hcall, hrest⟩ := h
    rw [flatMap_cons, ← append_assoc]
    cases hfault : call.fault with
    | some fault =>
      rw [accepted, filter_cons_of_neg (by simp [hfault])]
      refine ih hlines ?_
      rw [← append_assoc]
      exact hrest
    | none =>
      obtain ⟨hended, hfloats⟩ := hcall hfault
      have hwritten : call.written =
          Utf8.encode (print call.record.encode) ++ [newline] := by
        rw [Call.written, hfault]
      have hleft : Ended newline left := by
        by_cases hnil : left = []
        · exact .inl hnil
        · refine .inr ((hended.resolve_left (by simp [hnil])).symm.trans ?_).symm
          rw [getLast?_append_of_ne_nil _ hnil]
      have hdone : Ended newline (lines ++ left ++ call.written) :=
        .inr (by rw [hwritten]; simp)
      rw [accepted, filter_cons_of_pos (by simp [hfault]), map_cons, map_cons, readAll,
        append_assoc, segments_append hleft, hwritten, append_assoc, singleton_append,
        segments_line (newline_notMem _), map_append, map_cons,
        readLine_print _ hfloats]
      refine (Sublist.cons_cons _ ?_).trans (sublist_append_right _ _)
      exact ih hdone (by rw [append_nil]; exact hrest)

namespace TornLine

local instance : JsonLibrary Unit := textLibrary (fun _ => 0) fun _ => ()

local instance : LawfulJsonLibrary Unit := textLibrary_lawful _ _

def started : AuditRecord Unit := ⟨0, "started", none, some .clean, .null⟩

def torn : Call Unit := ⟨started, some ⟨1, "no space left on device"⟩⟩

end TornLine

end ScxAgent.Audit
