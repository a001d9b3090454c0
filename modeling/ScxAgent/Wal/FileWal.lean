import ScxAgent.Wal.Records

/-!
# The log file

`FileWal` appends one line of JSON for each entry and loads the file line by line. A failed write may
leave a part of its line behind; nothing removes it.
-/

namespace ScxAgent

open JsonTree List

variable {F : Type}

/-! ## The file -/

/-- The line before a newline, without a carriage return at its end. -/
def chompReturn (line : List Char) : List Char :=
  if line.getLast? = some '\r' then line.dropLast else line

def linesFrom : List Char → List Char → List (List Char)
  | line, [] => if line = [] then [] else [line.reverse]
  | line, c :: rest =>
    if c = '\n' then chompReturn line.reverse :: linesFrom [] rest else linesFrom (c :: line) rest

/-- `BufRead::lines`. What follows the last newline is a line too, unless there is nothing. -/
def bufLines (text : List Char) : List (List Char) := linesFrom [] text

theorem linesFrom_append (line text rest : List Char) :
    linesFrom line (text ++ '\n' :: rest) =
      linesFrom line (text ++ ['\n']) ++ linesFrom [] rest := by
  induction text generalizing line with
  | nil => simp [linesFrom]
  | cons c text ih =>
    rw [cons_append, cons_append, linesFrom, linesFrom]
    split
    · rw [ih, cons_append]
    · exact ih (c :: line)

theorem linesFrom_line {line : List Char} (h : '\n' ∉ line) (start rest : List Char) :
    linesFrom start (line ++ '\n' :: rest) =
      chompReturn (start.reverse ++ line) :: linesFrom [] rest := by
  induction line generalizing start with
  | nil => simp [linesFrom]
  | cons c line ih =>
    rw [mem_cons, not_or] at h
    rw [cons_append, linesFrom, if_neg (Ne.symm h.1), ih h.2, reverse_cons,
      append_assoc, singleton_append]

theorem chompReturn_eq_self {line : List Char} (h : '\r' ∉ line) : chompReturn line = line := by
  rw [chompReturn, if_neg]
  exact fun hlast => h (mem_of_getLast? hlast)

structure FileWal where
  path : String
  file : List Char
  sealed : Bool

/-- Every line of the file is ended. -/
def FileWal.Whole (wal : FileWal) : Prop := wal.file = [] ∨ wal.file.getLast? = some '\n'

theorem FileWal.Whole.bufLines_append {wal : FileWal} (h : wal.Whole) (rest : List Char) :
    bufLines (wal.file ++ rest) = bufLines wal.file ++ bufLines rest := by
  rcases h with hempty | hlast
  · rw [hempty]
    rfl
  · obtain ⟨text, htext⟩ := getLast?_eq_some_iff.mp hlast
    rw [htext, append_assoc, singleton_append]
    exact linesFrom_append [] text rest

section

variable [JsonLibrary F] [Sha256]

def loadLines (path : String) :
    ℕ → List (List Char) → Except WalError (List (WalEntry (JsonTree F)))
  | _, [] => .ok []
  | index, line :: lines =>
    if line.all isWhitespace then loadLines path (index + 1) lines
    else match (do WalEntry.decode (← JsonLibrary.parse (F := F) line)) with
      | .error error => .error ⟨s!"invalid WAL '{path}' line {index + 1}: {error}"⟩
      | .ok entry =>
        match loadLines path (index + 1) lines with
        | .error error => .error error
        | .ok entries => .ok (entry :: entries)

def loadFile (file : List Char) (path : String) : Except WalError (List (WalEntry (JsonTree F))) :=
  loadLines path 0 (bufLines file)

namespace FileWal

def fromOpenFile (F : Type) [JsonLibrary F] (path : String) (file : List Char) :
    Except WalError FileWal :=
  match loadFile (F := F) file path with
  | .error error => .error error
  | .ok entries => .ok ⟨path, file, entries.getLast?.any fun entry => entry.event.terminal⟩

/-- A write that stops early leaves what it has written so far and gives its reason. -/
structure WriteFault where
  written : ℕ
  reason : String

def writeSynced (wal : FileWal) (entry : WalEntry (JsonTree F)) (fault : Option WriteFault) :
    Except WalError Unit × FileWal :=
  if wal.sealed then (.error ⟨"cannot append to a sealed WAL"⟩, wal)
  else
    let encoded := JsonLibrary.print entry.encode ++ ['\n']
    match fault with
    | none => (.ok (), { wal with file := wal.file ++ encoded })
    | some fault =>
      (.error ⟨s!"failed to durably append WAL '{wal.path}': {fault.reason}"⟩,
        { wal with file := wal.file ++ encoded.take fault.written })

def appendDurable (wal : FileWal) (entry : WalEntry (JsonTree F)) (fault : Option WriteFault) :
    Except WalError Unit × FileWal :=
  if entry.event.terminal then (.error ⟨"use seal() for a terminal WAL entry"⟩, wal)
  else wal.writeSynced entry fault

def load (F : Type) [JsonLibrary F] (wal : FileWal) :
    Except WalError (List (WalEntry (JsonTree F))) :=
  loadFile wal.file wal.path

def sealEntry (wal : FileWal) (entry : WalEntry (JsonTree F)) (fault : Option WriteFault) :
    Except WalError Unit × FileWal :=
  if !entry.event.terminal then (.error ⟨"WAL seal entry must contain a sealed event"⟩, wal)
  else match wal.writeSynced entry fault with
    | (.error error, wal) => (.error error, wal)
    | (.ok (), wal) => (.ok (), { wal with sealed := true })

/-- The entry is logged with the call that takes it, and the call succeeds. -/
def Logs (wal : FileWal) (entry : WalEntry (JsonTree F)) (wal' : FileWal) : Prop :=
  ∃ fault, wal.appendDurable entry fault = (.ok (), wal') ∨ wal.sealEntry entry fault = (.ok (), wal')

/-- Entries are logged one after the other. -/
inductive LogsAll : FileWal → List (WalEntry (JsonTree F)) → FileWal → Prop where
  | nil (wal : FileWal) : LogsAll wal [] wal
  | cons {wal next last : FileWal} {entry : WalEntry (JsonTree F)}
    {entries : List (WalEntry (JsonTree F))} :
    wal.Logs entry next → LogsAll next entries last → LogsAll wal (entry :: entries) last

end FileWal

end

end ScxAgent
