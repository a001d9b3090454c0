import Mathlib.Data.List.TakeWhile
import ScxAgent.Mcp.Client
import ScxAgent.Segments

/-!
# Frames

Both ends of a connection read lines out of a buffer that is filled again and again. `read_frame` is
the client's reader, `read_bounded_frame` the server's. The bytes of a stream may be cut into fills
anywhere.
-/

namespace ScxAgent.Mcp

open Segments List

/-- What `fill_buf` gives, one buffer after the other; an empty buffer is the end of the stream. -/
abbrev Fills := List (List UInt8)

def consume (count : ℕ) : Fills → Fills
  | [] => []
  | available :: rest => if available.length ≤ count then rest else available.drop count :: rest

/-! ## The server -/

inductive Frame where
  | data (bytes : List UInt8)
  | tooLarge
  deriving DecidableEq

/-- What `read_bounded_frame` keeps between two fills. -/
structure LineBuffer where
  data : List UInt8
  tooLarge : Bool

namespace LineBuffer

def start : LineBuffer := ⟨[], false⟩

def extend (limit : ℕ) (buffer : LineBuffer) (payload : List UInt8) : LineBuffer :=
  if buffer.tooLarge then buffer
  else if buffer.data.length + payload.length ≤ limit then { buffer with data := buffer.data ++ payload }
  else ⟨[], true⟩

def atEnd (buffer : LineBuffer) : Option Frame :=
  if buffer.data.isEmpty && !buffer.tooLarge then none
  else if buffer.tooLarge then some .tooLarge
  else some (.data buffer.data)

def atNewline (buffer : LineBuffer) : Frame :=
  if buffer.tooLarge then .tooLarge
  else .data (if buffer.data.getLast? = some carriageReturn then buffer.data.dropLast else buffer.data)

end LineBuffer

def readBoundedFrame (limit : ℕ) : LineBuffer → Fills → Option Frame × Fills
  | buffer, [] => (buffer.atEnd, [])
  | buffer, available :: rest =>
    if available = [] then (buffer.atEnd, available :: rest)
    else
      let payload := available.takeWhile (· ≠ newline)
      let buffer := buffer.extend limit payload
      if newline ∈ available then
        (some buffer.atNewline, consume (payload.length + 1) (available :: rest))
      else readBoundedFrame limit buffer rest

/-! ## The client -/

def writeFrame (stream payload : List UInt8) : Except String (List UInt8) :=
  if payload.contains newline || payload.contains carriageReturn then
    .error "MCP newline-delimited JSON payload contains a raw line break"
  else .ok (stream ++ payload ++ [newline])

def payloadTooLong (maxPayloadBytes : ℕ) : McpAdapterError :=
  ⟨.protocol, s!"MCP frame payload exceeds limit: more than {maxPayloadBytes} bytes", false⟩

def payloadAtEnd (payload : List UInt8) : Except McpAdapterError (Option (List UInt8)) :=
  if payload = [] then .ok none
  else .error ⟨.protocol, "MCP stream ended before the frame newline", false⟩

def readFrame (maxPayloadBytes : ℕ) : List UInt8 → Fills →
    Except McpAdapterError (Option (List UInt8)) × Fills
  | payload, [] => (payloadAtEnd payload, [])
  | payload, available :: rest =>
    if available = [] then (payloadAtEnd payload, available :: rest)
    else if newline ∈ available then
      let line := available.takeWhile (· ≠ newline)
      if payload.length + line.length > maxPayloadBytes then
        (.error (payloadTooLong maxPayloadBytes), available :: rest)
      else
        let payload := payload ++ line
        let rest := consume (line.length + 1) (available :: rest)
        if payload = [] then
          (.error ⟨.protocol, "MCP frame payload must not be empty", false⟩, rest)
        else if carriageReturn ∈ payload then
          (.error ⟨.protocol, "MCP newline-delimited JSON payload contains a raw carriage return",
            false⟩, rest)
        else (.ok (some payload), rest)
    else if payload.length + available.length > maxPayloadBytes then
      (.error (payloadTooLong maxPayloadBytes), available :: rest)
    else readFrame maxPayloadBytes (payload ++ available) rest

/-! ## Calls one after the other -/

/-- What the calls of a reader return until one finds the end of the stream. -/
inductive Returns {R : Type} (read : Fills → Option R × Fills) : Fills → List R → Prop
  | done {fills fills' : Fills} (h : read fills = (none, fills')) : Returns read fills []
  | next {fills fills' : Fills} {result : R} {results : List R}
      (h : read fills = (some result, fills')) (hrest : Returns read fills' results) :
      Returns read fills (result :: results)

/-- A call of the client's reader. -/
def clientRead (maxPayloadBytes : ℕ) (fills : Fills) :
    Option (Except McpAdapterError (List UInt8)) × Fills :=
  match readFrame maxPayloadBytes [] fills with
  | (.ok none, fills) => (none, fills)
  | (.ok (some payload), fills) => (some (.ok payload), fills)
  | (.error error, fills) => (some (.error error), fills)

/-! ## One fill -/

variable {limit : ℕ} {fills : Fills} {available line rest : List UInt8}

theorem takeWhile_open (h : newline ∉ available) : available.takeWhile (· ≠ newline) = available :=
  takeWhile_eq_self_iff.mpr fun _ hbyte => by simpa using ne_of_mem_of_not_mem hbyte h

/-- A fill has the first newline of the stream, or is a part of the line before it. -/
theorem fill_cases {more : Fills} (hmore : [] ∉ more) (hline : newline ∉ line)
    (h : available ++ more.flatten = line ++ newline :: rest) :
    (newline ∈ available ∧ available.takeWhile (· ≠ newline) = line ∧
      [] ∉ consume (line.length + 1) (available :: more) ∧
      (consume (line.length + 1) (available :: more)).flatten = rest) ∨
    (newline ∉ available ∧ ∃ later, line = available ++ later ∧ newline ∉ later ∧
      more.flatten = later ++ newline :: rest) := by
  rcases append_eq_append_iff.mp h with ⟨later, rfl, hlater⟩ | ⟨found, rfl, hfound⟩
  · rw [mem_append, not_or] at hline
    exact .inr ⟨hline.1, later, rfl, hline.2, hlater⟩
  · cases found with
    | nil =>
      refine .inr ⟨by simpa using hline, [], by simp, not_mem_nil, hfound.symm⟩
    | cons first found =>
      obtain ⟨rfl, rfl⟩ := cons.inj hfound
      have htake : (line ++ newline :: found).takeWhile (· ≠ newline) = line := by
        rw [takeWhile_append_of_pos, takeWhile_cons_of_neg (by simp), append_nil]
        intro byte hbyte
        simpa using ne_of_mem_of_not_mem hbyte hline
      refine .inl ⟨by simp, htake, ?_⟩
      rw [consume]
      split
      next hlength =>
        have hnil : found = [] := by
          rw [length_append, length_cons] at hlength
          exact length_eq_zero_iff.mp (by omega)
        exact ⟨hmore, by rw [hnil]; rfl⟩
      next hlength =>
        have hdrop : (line ++ newline :: found).drop (line.length + 1) = found := by
          rw [← drop_drop, drop_left]
          rfl
        rw [hdrop]
        refine ⟨fun hmem => ?_, rfl⟩
        rcases mem_cons.mp hmem with hnil | hmem
        · rw [← hnil] at hlength
          simp at hlength
        · exact hmore hmem

/-! ## The server's frames -/

/-- What has been kept of the bytes of a line, computed from the bytes alone. -/
def held (limit : ℕ) (seen : List UInt8) : LineBuffer :=
  if seen.length ≤ limit then ⟨seen, false⟩ else ⟨[], true⟩

variable {seen : List UInt8}

theorem held_of_le (h : seen.length ≤ limit) : held limit seen = ⟨seen, false⟩ :=
  if_pos h

theorem held_of_lt (h : limit < seen.length) : held limit seen = ⟨[], true⟩ :=
  if_neg (Nat.not_le.mpr h)

theorem extend_held (limit : ℕ) (seen payload : List UInt8) :
    (held limit seen).extend limit payload = held limit (seen ++ payload) := by
  rcases Nat.lt_or_ge limit seen.length with hlong | hshort
  · rw [held_of_lt hlong, held_of_lt (by rw [length_append]; omega)]
    rfl
  · rw [held_of_le hshort, held, length_append]
    rfl

/-- The frame of a segment. A carriage return is dropped before a newline only. -/
def segmentFrame (limit : ℕ) (segment : List UInt8 × Bool) : Frame :=
  if limit < segment.1.length then .tooLarge
  else if segment.2 ∧ segment.1.getLast? = some carriageReturn then .data segment.1.dropLast
  else .data segment.1

theorem atNewline_held (limit : ℕ) (seen : List UInt8) :
    (held limit seen).atNewline = segmentFrame limit (seen, true) := by
  rcases Nat.lt_or_ge limit seen.length with hlong | hshort
  · rw [held_of_lt hlong, segmentFrame, if_pos hlong]
    rfl
  · rw [held_of_le hshort, segmentFrame, if_neg (Nat.not_lt.mpr hshort)]
    by_cases hreturn : seen.getLast? = some carriageReturn <;> simp [LineBuffer.atNewline, hreturn]

theorem atEnd_held (limit : ℕ) (seen : List UInt8) :
    (held limit seen).atEnd = if seen = [] then none else some (segmentFrame limit (seen, false)) := by
  rcases Nat.lt_or_ge limit seen.length with hlong | hshort
  · have hnil : seen ≠ [] := ne_nil_of_length_pos (by omega)
    rw [held_of_lt hlong, segmentFrame, if_pos hlong, if_neg hnil]
    rfl
  · rw [held_of_le hshort, segmentFrame, if_neg (Nat.not_lt.mpr hshort)]
    by_cases hnil : seen = [] <;> simp [LineBuffer.atEnd, hnil]

theorem readBoundedFrame_line (hfills : [] ∉ fills) (hline : newline ∉ line)
    (h : fills.flatten = line ++ newline :: rest) :
    ∃ fills', readBoundedFrame limit (held limit seen) fills =
      (some (segmentFrame limit (seen ++ line, true)), fills') ∧ [] ∉ fills' ∧
        fills'.flatten = rest := by
  induction fills generalizing seen line with
  | nil => simp at h
  | cons available more ih =>
    rw [mem_cons, not_or] at hfills
    rw [flatten_cons] at h
    rw [readBoundedFrame, if_neg (Ne.symm hfills.1)]
    rcases fill_cases hfills.2 hline h with ⟨hnewline, htake, hconsume⟩ | ⟨hopen, later, rfl, hlater, hmore⟩
    · simp only [if_pos hnewline, htake, extend_held, atNewline_held]
      exact ⟨_, rfl, hconsume⟩
    · simp only [if_neg hopen, takeWhile_open hopen, extend_held]
      rw [← append_assoc]
      exact ih hfills.2 hlater hmore

theorem readBoundedFrame_rest (hfills : [] ∉ fills) (h : newline ∉ fills.flatten) :
    readBoundedFrame limit (held limit seen) fills =
      ((held limit (seen ++ fills.flatten)).atEnd, []) := by
  induction fills generalizing seen with
  | nil => rw [readBoundedFrame, flatten_nil, append_nil]
  | cons available more ih =>
    rw [mem_cons, not_or] at hfills
    rw [flatten_cons, mem_append, not_or] at h
    rw [readBoundedFrame, if_neg (Ne.symm hfills.1)]
    simp only [if_neg h.1, takeWhile_open h.1, extend_held]
    rw [ih hfills.2 h.2, flatten_cons, append_assoc]

theorem returns_readBoundedFrame (hfills : [] ∉ fills) :
    Returns (readBoundedFrame limit .start) fills
      ((segments newline fills.flatten).map (segmentFrame limit)) := by
  have hstart : LineBuffer.start = held limit [] := (held_of_le (Nat.zero_le limit)).symm
  rw [hstart]
  generalize hstream : fills.flatten = stream
  induction stream using marked_induction newline generalizing fills with
  | rest stream hopen =>
    have hread : readBoundedFrame limit (held limit []) fills = _ :=
      readBoundedFrame_rest hfills (hstream ▸ hopen)
    rw [hstream, nil_append, atEnd_held] at hread
    rw [segments_rest hopen]
    by_cases hnil : stream = []
    · rw [if_pos hnil] at hread ⊢
      exact .done hread
    · rw [if_neg hnil] at hread ⊢
      exact .next hread (.done rfl)
  | line line stream hline ih =>
    obtain ⟨fills', hread, hfills', hrest⟩ : ∃ fills', readBoundedFrame limit (held limit []) fills =
        (some (segmentFrame limit (line, true)), fills') ∧ [] ∉ fills' ∧ fills'.flatten = stream :=
      readBoundedFrame_line hfills hline hstream
    rw [segments_line hline]
    exact .next hread (ih hfills' hrest)

/-! ## The client's payloads -/

/-- The payloads that `write_frame` takes and that both readers have room for. -/
structure Payload (limit : ℕ) (payload : List UInt8) : Prop where
  nonempty : payload ≠ []
  newline : newline ∉ payload
  carriageReturn : carriageReturn ∉ payload
  within : payload.length ≤ limit

theorem readFrame_line (hfills : [] ∉ fills) (hline : newline ∉ line)
    (hpayload : Payload limit (seen ++ line)) (h : fills.flatten = line ++ newline :: rest) :
    ∃ fills', readFrame limit seen fills = (.ok (some (seen ++ line)), fills') ∧ [] ∉ fills' ∧
      fills'.flatten = rest := by
  induction fills generalizing seen line with
  | nil => simp at h
  | cons available more ih =>
    rw [mem_cons, not_or] at hfills
    rw [flatten_cons] at h
    rw [readFrame, if_neg (Ne.symm hfills.1)]
    have hlength := hpayload.within
    rw [length_append] at hlength
    rcases fill_cases hfills.2 hline h with ⟨hnewline, htake, hconsume⟩ | ⟨hopen, later, rfl, hlater, hmore⟩
    · simp only [if_pos hnewline, htake, if_neg (Nat.not_lt.mpr hlength), if_neg hpayload.nonempty,
        if_neg hpayload.carriageReturn]
      exact ⟨_, rfl, hconsume⟩
    · rw [length_append] at hlength
      rw [if_neg hopen, if_neg (by omega), ← append_assoc]
      exact ih hfills.2 hlater (by rwa [append_assoc]) hmore

/-- The bytes of payloads written one after the other. -/
def framed (payloads : List (List UInt8)) : List UInt8 :=
  payloads.flatMap fun payload => payload ++ [newline]

variable {payloads : List (List UInt8)}

theorem writeFrame_foldlM (hpayloads : ∀ payload ∈ payloads, Payload limit payload)
    (stream : List UInt8) :
    payloads.foldlM writeFrame stream = .ok (stream ++ framed payloads) := by
  induction payloads generalizing stream with
  | nil => simp [framed]; rfl
  | cons payload payloads ih =>
    obtain ⟨hpayload, hrest⟩ := forall_mem_cons.mp hpayloads
    rw [foldlM_cons, writeFrame, if_neg (by simp [hpayload.newline, hpayload.carriageReturn])]
    change payloads.foldlM writeFrame _ = _
    rw [ih hrest]
    simp [framed]

theorem segments_framed (hpayloads : ∀ payload ∈ payloads, Payload limit payload) :
    segments newline (framed payloads) = payloads.map (·, true) := by
  induction payloads with
  | nil => rfl
  | cons payload payloads ih =>
    obtain ⟨hpayload, hrest⟩ := forall_mem_cons.mp hpayloads
    rw [framed, flatMap_cons, append_assoc, singleton_append,
      segments_line hpayload.newline]
    exact congrArg _ (ih hrest)

theorem returns_clientRead (hfills : [] ∉ fills)
    (hpayloads : ∀ payload ∈ payloads, Payload limit payload)
    (hstream : fills.flatten = framed payloads) :
    Returns (clientRead limit) fills (payloads.map .ok) := by
  induction payloads generalizing fills with
  | nil =>
    have hnil : fills = [] := by
      cases fills with
      | nil => rfl
      | cons available more =>
        rw [flatten_cons] at hstream
        exact absurd (mem_cons_self) ((append_eq_nil_iff.mp hstream).1 ▸ hfills)
    rw [hnil]
    exact .done rfl
  | cons payload payloads ih =>
    obtain ⟨hpayload, hrest⟩ := forall_mem_cons.mp hpayloads
    rw [framed, flatMap_cons, append_assoc, singleton_append] at hstream
    obtain ⟨fills', hread, hfills', hmore⟩ : ∃ fills', readFrame limit [] fills =
        (.ok (some payload), fills') ∧ [] ∉ fills' ∧ fills'.flatten = framed payloads :=
      readFrame_line hfills hpayload.newline hpayload hstream
    exact .next (by rw [clientRead, hread]) (ih hfills' hrest hmore)

/-- The reader thread takes a fill as `read_frame` does. -/
theorem readFrame_eq_scan {payload : List UInt8} {more : Fills} (h : available ≠ []) :
    (readFrame maxTransportFrameBytes payload (available :: more)).1 =
      match scan payload available with
      | .more payload => (readFrame maxTransportFrameBytes payload more).1
      | .frame payload _ => .ok (some payload)
      | .failed error => .error error := by
  rw [readFrame, if_neg h]
  simp only [scan]
  split_ifs <;> rfl

/-- Payloads come out as they went in, however their bytes are cut; and what the server reads of any
stream are the frames of its segments, of which those longer than the limit are too large. -/
theorem frames_survive_chunking (limit : ℕ) :
    (∀ payloads : List (List UInt8), (∀ payload ∈ payloads, Payload limit payload) →
      ∃ stream, payloads.foldlM writeFrame [] = .ok stream ∧
        ∀ fills : Fills, [] ∉ fills → fills.flatten = stream →
          Returns (clientRead limit) fills (payloads.map .ok) ∧
          Returns (readBoundedFrame limit .start) fills (payloads.map .data)) ∧
    ∀ fills : Fills, [] ∉ fills → ∃ frames, Returns (readBoundedFrame limit .start) fills frames ∧
      frames = (segments newline fills.flatten).map (segmentFrame limit) ∧
      frames.map (decide <| · = .tooLarge) =
        (segments newline fills.flatten).map (decide <| limit < ·.1.length) := by
  constructor
  · intro payloads hpayloads
    refine ⟨framed payloads, writeFrame_foldlM hpayloads [], fun fills hfills hstream => ?_⟩
    refine ⟨returns_clientRead hfills hpayloads hstream, ?_⟩
    have hreturns : Returns (readBoundedFrame limit .start) fills _ := returns_readBoundedFrame hfills
    rw [hstream, segments_framed hpayloads, map_map] at hreturns
    convert hreturns using 1
    refine map_congr_left fun payload hpayload => ?_
    have hlast : payload.getLast? ≠ some carriageReturn := fun hlast =>
      (hpayloads payload hpayload).carriageReturn (mem_of_getLast? hlast)
    simp [segmentFrame, hlast, (hpayloads payload hpayload).within]
  · intro fills hfills
    refine ⟨_, returns_readBoundedFrame hfills, rfl, ?_⟩
    rw [map_map]
    refine map_congr_left fun segment _ => ?_
    simp only [Function.comp_apply, segmentFrame]
    split_ifs <;> simp_all

/-- A line that is too long, and the one after it. -/
theorem frames_survive_chunking_resumed :
    Returns (readBoundedFrame 2 .start) [[49, 50], [51, 10, 55], [13, 10]] [.tooLarge, .data [55]] := by
  obtain ⟨frames, hreturns, hframes, -⟩ :=
    (frames_survive_chunking 2).2 [[49, 50], [51, 10, 55], [13, 10]] (by decide)
  rw [hframes] at hreturns
  exact hreturns

end ScxAgent.Mcp
