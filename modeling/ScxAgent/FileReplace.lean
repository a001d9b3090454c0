import Mathlib.Data.List.Basic
import Mathlib.Tactic.Common
import ScxAgent.OutcomeLogic

/-!
# A directory whose calls may fail

The files of one directory as a process sees them. Every call may fail as a plan of faults says; the
plan is part of the directory, so a statement about all directories is one about all patterns of
failures. `Untouched` is what all calls but the last one of an atomic replacement have in common: the
contents of a given file stay what they were.
-/

namespace FileReplace

open StepLogic OutcomeLogic Function

structure IoError where
  alreadyExists : Bool
  message : String
  /-- How much of a failed write got through. -/
  written : ℕ

structure Directory where
  files : String → Option ByteArray
  /-- How many calls were made. -/
  calls : ℕ
  /-- Whether the call of this number fails. -/
  faults : ℕ → Option IoError
  /-- How often a file was replaced by another one. -/
  renames : ℕ
  isDirectory : Bool
  /-- A counter of the process for fresh names. -/
  counter : UInt64

/-- A directory without files whose calls all succeed. -/
def Directory.fresh : Directory where
  files := fun _ => none
  calls := 0
  faults := fun _ => none
  renames := 0
  isDirectory := true
  counter := 0

def Directory.Faulty (d : Directory) : Prop := ∃ n, d.faults n ≠ none

variable {ε α : Type}

/-- One call: it fails as planned, or has its effect. -/
def io (effect : Directory → Except IoError α × Directory) :
    Proc Directory ε (Except IoError α) := fun d =>
  match d.faults d.calls with
  | some error => (.ok (.error error), { d with calls := d.calls + 1 })
  | none => (.ok (effect { d with calls := d.calls + 1 }).1, (effect { d with calls := d.calls + 1 }).2)

def putFile (d : Directory) (name : String) (contents : Option ByteArray) : Directory :=
  { d with files := Function.update d.files name contents }

/-- A new file, which must not be there yet. -/
def createNew (name : String) : Proc Directory ε (Except IoError Unit) :=
  io fun d => match d.files name with
    | some _ => (.error ⟨true, "File exists (os error 17)", 0⟩, d)
    | none => (.ok (), putFile d name (some ByteArray.empty))

/-- Appends to a file. -/
def writeAll (name : String) (contents : ByteArray) :
    Proc Directory ε (Except IoError Unit) := fun d =>
  let before := (d.files name).getD ByteArray.empty
  match d.faults d.calls with
  | some error =>
    (.ok (.error error),
      putFile { d with calls := d.calls + 1 } name (some (before ++ contents.extract 0 error.written)))
  | none => (.ok (.ok ()), putFile { d with calls := d.calls + 1 } name (some (before ++ contents)))

/-- A call that changes no file: to sync, to open, to make a directory. -/
def touch : Proc Directory ε (Except IoError Unit) := io fun d => (.ok (), d)

def rename (source target : String) : Proc Directory ε (Except IoError Unit) :=
  io fun d => (.ok (), { putFile (putFile d target (d.files source)) source none with
    renames := d.renames + 1 })

def removeFile (name : String) : Proc Directory ε (Except IoError Unit) :=
  io fun d => (.ok (), putFile d name none)

def metadataIsDirectory : Proc Directory ε (Except IoError Bool) := io fun d => (.ok d.isDirectory, d)

/-- The value of the counter, which grows by one. -/
def nextCount : Proc Directory ε UInt64 := fun d =>
  (.ok d.counter, { d with counter := d.counter + 1 })

/-- The contents of a file, if it is there. -/
def readFile (name : String) : Proc Directory ε (Except IoError (Option ByteArray)) :=
  io fun d => (.ok (d.files name), d)

/-- The plan and this file are as they were. -/
structure Untouched (target : String) (d d' : Directory) : Prop where
  faults : d'.faults = d.faults
  contents : d'.files target = d.files target
  renames : d'.renames = d.renames
  isDirectory : d'.isDirectory = d.isDirectory

namespace Untouched

variable {target : String} {d d' d'' : Directory}

theorem refl (d : Directory) : Untouched target d d := ⟨rfl, rfl, rfl, rfl⟩

theorem trans (h : Untouched target d d') (h' : Untouched target d' d'') :
    Untouched target d d'' :=
  ⟨h'.faults.trans h.faults, h'.contents.trans h.contents, h'.renames.trans h.renames,
    h'.isDirectory.trans h.isDirectory⟩

theorem faulty (h : Untouched target d d') (hfaulty : d'.Faulty) : d.Faulty := by
  rwa [Directory.Faulty, h.faults] at hfaulty

end Untouched

/-- Every file but this one is as it was. -/
def Beside (name : String) (d d' : Directory) : Prop := ∀ target ≠ name, Untouched target d d'

/-- All files are as they were. -/
def Idle (d d' : Directory) : Prop := ∀ target, Untouched target d d'

namespace Beside

variable {name : String} {d d' d'' : Directory}

theorem trans (h : Beside name d d') (h' : Beside name d' d'') : Beside name d d'' :=
  fun target hne => (h target hne).trans (h' target hne)

theorem of_idle (h : Idle d d') : Beside name d d' := fun target _ => h target

theorem putFile (contents : Option ByteArray) :
    Beside name d (putFile { d with calls := d.calls + 1 } name contents) :=
  fun _ hne => ⟨rfl, update_of_ne hne _ _, rfl, rfl⟩

end Beside

namespace Idle

variable {d d' d'' : Directory}

theorem called (d : Directory) : Idle d { d with calls := d.calls + 1 } :=
  fun _ => ⟨rfl, rfl, rfl, rfl⟩

theorem trans (h : Idle d d') (h' : Idle d' d'') : Idle d d'' :=
  fun target => (h target).trans (h' target)

theorem files (h : Idle d d') : d'.files = d.files := funext fun target => (h target).contents

theorem isDirectory (h : Idle d d') : d'.isDirectory = d.isDirectory := (h "").isDirectory

theorem faulty (h : Idle d d') (hfaulty : d'.Faulty) : d.Faulty := (h "").faulty hfaulty

end Idle

/-- The target holds these contents now. -/
structure Replaced (target : String) (contents : Option ByteArray) (d d' : Directory) : Prop where
  faults : d'.faults = d.faults
  contents : d'.files target = contents
  renames : d'.renames = d.renames + 1
  isDirectory : d'.isDirectory = d.isDirectory

namespace Replaced

variable {target : String} {contents : Option ByteArray} {d d' d'' : Directory}

theorem after (h : Untouched target d d') (h' : Replaced target contents d' d'') :
    Replaced target contents d d'' :=
  ⟨h'.faults.trans h.faults, h'.contents, by rw [h'.renames, h.renames],
    h'.isDirectory.trans h.isDirectory⟩

theorem before (h : Replaced target contents d d') (h' : Untouched target d' d'') :
    Replaced target contents d d'' :=
  ⟨h'.faults.trans h.faults, h'.contents.trans h.contents, h'.renames.trans h.renames,
    h'.isDirectory.trans h.isDirectory⟩

theorem faulty (h : Replaced target contents d d') (hfaulty : d'.Faulty) : d.Faulty := by
  rwa [Directory.Faulty, h.faults] at hfaulty

end Replaced

/-! ## What the calls do

Each call has succeeded or left no trace but in the file that it was about; a call that fails although
nothing stands against it was planned to. -/

section Rules

variable {target name : String} {d : Directory} {E : ε → Directory → Prop}

theorem faulty_of_fault {error : IoError} (h : d.faults d.calls = some error) : d.Faulty :=
  ⟨d.calls, by rw [h]; exact Option.some_ne_none _⟩

/-- A call that changes nothing and answers from what is there. -/
theorem io_idle (answer : Directory → α) :
    Settles (io fun d => (.ok (answer d), d) : Proc Directory ε (Except IoError α)) d
      (fun r d' => Idle d d' ∧
        (r = .ok (answer { d with calls := d.calls + 1 }) ∨ (∃ error, r = .error error) ∧ d.Faulty))
      E := by
  cases hfault : d.faults d.calls with
  | some error =>
    refine .of_run (a := .error error) (t := { d with calls := d.calls + 1 }) ?_
      ⟨.called d, .inr ⟨⟨error, rfl⟩, faulty_of_fault hfault⟩⟩
    simp only [io, hfault]
  | none =>
    refine .of_run (a := .ok (answer { d with calls := d.calls + 1 }))
      (t := { d with calls := d.calls + 1 }) ?_ ⟨.called d, .inl rfl⟩
    simp only [io, hfault]

theorem removeFile_settles :
    Settles (removeFile name : Proc Directory ε (Except IoError Unit)) d
      (fun _ d' => Beside name d d') E := by
  cases hfault : d.faults d.calls with
  | some error =>
    refine .of_run (a := .error error) (t := { d with calls := d.calls + 1 }) ?_
      (.of_idle (.called d))
    simp only [removeFile, io, hfault]
  | none =>
    refine .of_run (a := .ok ()) (t := putFile { d with calls := d.calls + 1 } name none) ?_
      (.putFile none)
    simp only [removeFile, io, hfault]

/-- A file that was created was not there before and is empty. -/
theorem createNew_settles :
    Settles (createNew name : Proc Directory ε (Except IoError Unit)) d
      (fun r d' => r = .ok () ∧ Beside name d d' ∧ d.files name = none ∧
          d'.files name = some ByteArray.empty ∨
        (∃ error, r = .error error) ∧ Idle d d' ∧ (d.Faulty ∨ d.files name ≠ none)) E := by
  cases hfault : d.faults d.calls with
  | some error =>
    refine .of_run (a := .error error) (t := { d with calls := d.calls + 1 }) ?_
      (.inr ⟨⟨error, rfl⟩, .called d, .inl (faulty_of_fault hfault)⟩)
    simp only [createNew, io, hfault]
  | none =>
    cases hfile : d.files name with
    | some contents =>
      refine .of_run (a := .error ⟨true, "File exists (os error 17)", 0⟩)
        (t := { d with calls := d.calls + 1 }) ?_
        (.inr ⟨⟨_, rfl⟩, .called d, .inr (Option.some_ne_none contents)⟩)
      simp only [createNew, io, hfault, hfile]
    | none =>
      refine .of_run (a := .ok ())
        (t := putFile { d with calls := d.calls + 1 } name (some ByteArray.empty)) ?_
        (.inl ⟨rfl, .putFile _, rfl, update_self ..⟩)
      simp only [createNew, io, hfault, hfile]

/-- A write that succeeds has appended all of it. -/
theorem writeAll_settles (contents : ByteArray) :
    Settles (writeAll name contents : Proc Directory ε (Except IoError Unit)) d
      (fun r d' => Beside name d d' ∧
        (r = .ok () ∧ d'.files name = some ((d.files name).getD ByteArray.empty ++ contents) ∨
          (∃ error, r = .error error) ∧ d.Faulty)) E := by
  cases hfault : d.faults d.calls with
  | some error =>
    refine .of_run (a := .error error) (t := putFile { d with calls := d.calls + 1 } name
      (some ((d.files name).getD ByteArray.empty ++ contents.extract 0 error.written))) ?_
      ⟨.putFile _, .inr ⟨⟨error, rfl⟩, faulty_of_fault hfault⟩⟩
    simp only [writeAll, hfault]
  | none =>
    refine .of_run (a := .ok ()) (t := putFile { d with calls := d.calls + 1 } name
      (some ((d.files name).getD ByteArray.empty ++ contents))) ?_
      ⟨.putFile _, .inl ⟨rfl, update_self ..⟩⟩
    simp only [writeAll, hfault]

theorem nextCount_settles : Settles (nextCount : Proc Directory ε UInt64) d
    (fun _ d' => Idle d d') E :=
  .of_run rfl fun _ => ⟨rfl, rfl, rfl, rfl⟩

/-- A file that was renamed has left its name and taken that of the target. -/
theorem rename_settles (hne : target ≠ name) :
    Settles (rename name target : Proc Directory ε (Except IoError Unit)) d
      (fun r d' => r = .ok () ∧ Replaced target (d.files name) d d' ∧ d'.files name = none ∧
          (∀ other, other ≠ target → other ≠ name → d'.files other = d.files other) ∨
        (∃ error, r = .error error) ∧ Idle d d' ∧ d.Faulty) E := by
  cases hfault : d.faults d.calls with
  | some error =>
    refine .of_run (a := .error error) (t := { d with calls := d.calls + 1 }) ?_
      (.inr ⟨⟨error, rfl⟩, .called d, faulty_of_fault hfault⟩)
    simp only [rename, io, hfault]
  | none =>
    refine .of_run (a := .ok ()) (t := { putFile (putFile { d with calls := d.calls + 1 } target
      (d.files name)) name none with renames := d.renames + 1 }) ?_
      (.inl ⟨rfl, ⟨rfl, ?_, rfl, rfl⟩, update_self .., fun other htarget hname => ?_⟩)
    · simp only [rename, io, hfault]
    · simp only [putFile, update_of_ne hne, update_self]
    · simp only [putFile, update_of_ne hname, update_of_ne htarget]

/-- The answer is used if there is one, and an error is put into words. -/
theorem io_orRaise {β : Type} {Q : β → Directory → Prop} {describe : IoError → ε}
    {answer : Directory → α} {f : α → Proc Directory ε β}
    (hok : ∀ d', Idle d d' → Settles (f (answer { d with calls := d.calls + 1 })) d' Q E)
    (herr : ∀ error d', Idle d d' → d.Faulty → E (describe error) d') :
    Settles ((io fun d => (.ok (answer d), d)) >>= fun r => orRaise describe r >>= f) d Q E := by
  refine (io_idle answer).bind fun r d' ⟨hidle, hr⟩ => ?_
  rcases hr with rfl | ⟨⟨error, rfl⟩, hfaulty⟩
  · exact hok d' hidle
  · exact .orRaise_then nofun fun _ _ => herr _ d' hidle hfaulty

end Rules

end FileReplace
