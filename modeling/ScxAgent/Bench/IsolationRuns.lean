import ScxAgent.Bench.Isolation

/-!
# Undoing host isolation

`restore` writes back what the last `prepare` saved. That is what the host had before its isolation
as long as no `prepare --force` took a host that was isolated already for the original one.
-/

namespace ScxAgent.Bench.Isolation

open PyText List Option

namespace World

variable {w origin : World}

/-- The GRUB defaults and the frequency settings are those of `origin`. -/
structure Undone (origin w : World) : Prop where
  grub : w.grub = origin.grub
  values : ∀ cpu setting, w.value cpu setting = origin.value cpu setting

@[simp] theorem readValue_value (cpu : ℕ) (setting : Setting) :
    readValue (w.value cpu setting) = w.value cpu setting := by
  unfold value
  cases w.file cpu setting with
  | none => rfl
  | some contents => exact strip_universalNewlines_strip contents

variable {cpu : ℕ} {setting : Setting} {w' : World}

theorem value_of_file {contents : Text} (h : w.file cpu setting = some contents) :
    w.value cpu setting = readValue contents := by
  rw [value, h]
  rfl

theorem value_congr (h : w'.file cpu setting = w.file cpu setting) :
    w'.value cpu setting = w.value cpu setting := by
  rw [value, h, value]

theorem file_isSome_of_value (cpu : ℕ) (setting : Setting) (h : w.value cpu setting ≠ []) :
    (w.file cpu setting).isSome := by
  unfold value at h
  cases hfile : w.file cpu setting with
  | none => simp [hfile] at h
  | some contents => rfl

theorem value_of_absent (h : ¬ (w.file cpu setting).isSome) : w.value cpu setting = [] := by
  rw [not_isSome_iff_eq_none] at h
  simp [value, h]

theorem file_write (cpu other : ℕ) (setting name : Setting) (text : Text) :
    (w.write cpu setting text).file other name =
      if other = cpu ∧ name = setting then (w.file other name).map fun _ => text
      else w.file other name := by
  unfold file write
  cases hfiles : w.cpufreq other with
  | none => simp [hfiles]
  | some files =>
    simp only [hfiles, map_some, bind_some]

theorem file_writeBack (cpu other : ℕ) (values : Setting → Text) (setting name : Setting) :
    (w.writeBack cpu values setting).file other name =
      if other = cpu ∧ name = setting ∧ values setting ≠ [] then
        (w.file other name).map fun _ => values setting
      else w.file other name := by
  unfold writeBack
  by_cases hblank : values setting = []
  · simp [hblank]
  · rw [if_neg hblank, file_write]
    simp [hblank]

/-! ## What the saved state still knows -/

/-- The saved state describes the host as it was at `origin`, and whatever has changed since can be
written back from it. -/
structure Undoable (origin w : World) (state : SavedState) : Prop where
  grub : state.originalGrub = origin.grub
  recorded : ∀ entry ∈ state.cpufreq, entry.2 = origin.value entry.1
  present : ∀ cpu setting, (w.file cpu setting).isSome = (origin.file cpu setting).isSome
  values : ∀ cpu setting, w.value cpu setting = origin.value cpu setting ∨
    (∃ values, (cpu, values) ∈ state.cpufreq) ∧ origin.value cpu setting ≠ []

/-- The three settings of a saved CPU, written back. -/
theorem file_writeBack_all (cpu other : ℕ) (values : Setting → Text) (name : Setting) :
    (((w.writeBack cpu values .scalingMaxFreq).writeBack cpu values .scalingMinFreq).writeBack
        cpu values .scalingGovernor).file other name =
      if other = cpu ∧ values name ≠ [] then (w.file other name).map fun _ => values name
      else w.file other name := by
  simp only [file_writeBack]
  cases name <;> simp

variable {entries : List (ℕ × (Setting → Text))}

theorem restoreCpufreq_values (hrecorded : ∀ entry ∈ entries, entry.2 = origin.value entry.1)
    (hpresent : ∀ cpu setting, (w.file cpu setting).isSome = (origin.file cpu setting).isSome)
    (hvalues : ∀ cpu setting, w.value cpu setting = origin.value cpu setting ∨ (∃ values, (cpu, values) ∈ entries) ∧ origin.value cpu setting ≠ [])
    : ∀ cpu setting, (w.restoreCpufreq entries).value cpu setting = origin.value cpu setting := by
  induction entries generalizing w with
  | nil =>
    intro cpu setting
    exact (hvalues cpu setting).resolve_right (by simp)
  | cons entry entries ih =>
    obtain ⟨cpu, values⟩ := entry
    rw [forall_mem_cons] at hrecorded
    obtain ⟨hown, hrest⟩ := hrecorded
    dsimp only at hown
    subst hown
    refine ih hrest ?_ ?_
    · intro other name
      rw [file_writeBack_all, ← hpresent]
      split_ifs <;> simp
    · intro other name
      have hfile := file_writeBack_all (w := w) cpu other (origin.value cpu) name
      by_cases hcase : other = cpu ∧ origin.value cpu name ≠ []
      · -- This CPU: a value that was saved is there again.
        left
        rw [if_pos hcase] at hfile
        obtain ⟨rfl, hsaved⟩ := hcase
        have hthere : (w.file other name).isSome := by
          rw [hpresent]
          exact file_isSome_of_value _ _ hsaved
        obtain ⟨contents, hcontents⟩ := isSome_iff_exists.mp hthere
        rw [hcontents] at hfile
        exact (value_of_file hfile).trans (readValue_value other name)
      · rw [if_neg hcase] at hfile
        rw [value_congr hfile]
        rcases hvalues other name with heq | ⟨⟨values, hmem⟩, hsaved⟩
        · exact .inl heq
        · rcases mem_cons.mp hmem with hfirst | hlater
          · obtain ⟨rfl, _⟩ := Prod.mk.inj hfirst
            exact absurd ⟨rfl, hsaved⟩ hcase
          · exact .inr ⟨⟨values, hlater⟩, hsaved⟩

/-- The three settings of a CPU at a fixed frequency. -/
theorem file_fixed (cpu other : ℕ) (maxFreq : Text) (name : Setting) :
    (((w.write cpu .scalingGovernor fixedGovernor).write cpu .scalingMaxFreq maxFreq).write
        cpu .scalingMinFreq maxFreq).file other name =
      if other = cpu then
        (w.file other name).map fun _ =>
          if name = .scalingGovernor then fixedGovernor else maxFreq
      else w.file other name := by
  simp only [file_write]
  cases name <;> by_cases hcpu : other = cpu <;> simp [hcpu]

/-- Fixing frequencies changes only settings that can be written back. -/
theorem setFixedCpufreq_keeps {K : ℕ → Prop}
    (hknown : ∀ entry ∈ entries, K entry.1 ∧ entry.2 = origin.value entry.1)
    (hsaved : ∀ entry ∈ entries, entry.2 .scalingMaxFreq ≠ [] → ∀ setting, (origin.file entry.1 setting).isSome → entry.2 setting ≠ [])
    (hpresent : ∀ cpu setting, (w.file cpu setting).isSome = (origin.file cpu setting).isSome)
    (hvalues : ∀ cpu setting, w.value cpu setting = origin.value cpu setting ∨ K cpu ∧ origin.value cpu setting ≠ []) :
    (∀ cpu setting, ((w.setFixedCpufreq entries).1.file cpu setting).isSome =
        (origin.file cpu setting).isSome) ∧
      ∀ cpu setting, (w.setFixedCpufreq entries).1.value cpu setting = origin.value cpu setting ∨
        K cpu ∧ origin.value cpu setting ≠ [] := by
  induction entries generalizing w with
  | nil => exact ⟨hpresent, hvalues⟩
  | cons entry entries ih =>
    obtain ⟨cpu, values⟩ := entry
    rw [forall_mem_cons] at hknown hsaved
    simp only [setFixedCpufreq]
    split
    · exact ⟨hpresent, hvalues⟩
    split
    · exact ⟨hpresent, hvalues⟩
    rename_i hmax
    refine ih hknown.2 hsaved.2 ?_ ?_
    · intro other name
      rw [file_fixed, ← hpresent]
      split <;> simp
    · intro other name
      by_cases hcpu : other = cpu
      · subst hcpu
        by_cases hthere : (origin.file other name).isSome
        · right
          refine ⟨hknown.1.1, ?_⟩
          have hnonblank := hsaved.1 hmax name hthere
          rwa [hknown.1.2] at hnonblank
        · left
          rw [value_of_absent hthere]
          apply value_of_absent
          rw [file_fixed, if_pos rfl, isSome_map, hpresent]
          exact hthere
      · have hsame := file_fixed (w := w) cpu other (values .scalingMaxFreq) name
        rw [if_neg hcpu] at hsame
        rw [value_congr hsame]
        exact hvalues other name

theorem captureCpufreq_recorded {cpus : List ℕ} {entry : ℕ × (Setting → Text)}
    (h : entry ∈ w.captureCpufreq cpus) : entry.2 = w.value entry.1 := by
  obtain ⟨cpu, _, rfl⟩ := mem_map.mp h
  rfl

theorem setFixedCpufreq_saved (entries : List (ℕ × (Setting → Text))) :
    (w.setFixedCpufreq entries).1.saved = w.saved := by
  induction entries generalizing w with
  | nil => rfl
  | cons entry entries ih =>
    simp only [setFixedCpufreq]
    split
    · rfl
    split
    · rfl
    · exact ih

theorem applyIrqIsolation_frame (cpus isolatedCpus : List ℕ) :
    (w.applyIrqIsolation cpus isolatedCpus).1.saved = w.saved ∧
      (w.applyIrqIsolation cpus isolatedCpus).1.grub = w.grub ∧
      (w.applyIrqIsolation cpus isolatedCpus).1.cpufreq = w.cpufreq := by
  unfold applyIrqIsolation
  dsimp only
  split <;> exact ⟨rfl, rfl, rfl⟩

theorem writeBack_grub (cpu : ℕ) (values : Setting → Text) (setting : Setting) :
    (w.writeBack cpu values setting).grub = w.grub := by
  unfold writeBack
  split <;> rfl

theorem restoreCpufreq_grub (entries : List (ℕ × (Setting → Text))) :
    (w.restoreCpufreq entries).grub = w.grub := by
  induction entries generalizing w with
  | nil => rfl
  | cons entry entries ih =>
    rw [restoreCpufreq, ih, writeBack_grub, writeBack_grub, writeBack_grub]

variable {config : Config} {state : SavedState}

section

variable [Shlex] {newGrub : Text}

/-- The steps after which the host can still be undone: the GRUB defaults have Unix line ends when
they are saved, a forced `prepare` finds a host that still is as the saved state says, and
`apply-runtime` fixes only CPUs all of whose settings have been saved. -/
def Clean (w : World) : Command → Prop
  | .prepare _ force =>
    match w.saved with
    | none => '\r' ∉ w.grub
    | some state => force → universalNewlines w.grub = state.originalGrub ∧
        ∀ entry ∈ state.cpufreq, entry.2 = w.value entry.1
  | .applyRuntime => ∀ state, w.saved = some state → ∀ entry ∈ state.cpufreq,
      entry.2 .scalingMaxFreq ≠ [] → ∀ setting, (w.file entry.1 setting).isSome →
        entry.2 setting ≠ []
  | .restore => True

/-- The host is as at `origin`, or the saved state leads back there. -/
def Tracks (origin w : World) : Prop :=
  match w.saved with
  | none => w.grub = origin.grub ∧ ∀ cpu, w.cpufreq cpu = origin.cpufreq cpu
  | some state => Undoable origin w state

theorem plan_ok (h : w.plan config = .ok (state, newGrub)) :
    state.originalGrub = universalNewlines w.grub ∧
      state.cpufreq = w.captureCpufreq state.targetCpus := by
  simp only [plan, bind, Except.bind] at h
  repeat' split at h
  all_goals cases h
  exact ⟨rfl, rfl⟩

/-- A state saved while the host is as at `origin` leads back there. -/
theorem Undoable.of_plan (hplan : w.plan config = .ok (state, newGrub))
    (hgrub : universalNewlines w.grub = origin.grub)
    (hpresent : ∀ cpu setting, (w.file cpu setting).isSome = (origin.file cpu setting).isSome)
    (hvalues : ∀ cpu setting, w.value cpu setting = origin.value cpu setting) :
    Undoable origin { w with saved := some state, grub := newGrub } state where
  grub := (plan_ok hplan).1.trans hgrub
  recorded entry hentry := by
    rw [(plan_ok hplan).2] at hentry
    rw [captureCpufreq_recorded hentry]
    exact funext (hvalues entry.1)
  present := hpresent
  values cpu setting := .inl (hvalues cpu setting)

theorem prepare_tracks {force : Bool} (h : Tracks origin w)
    (hclean : w.Clean (.prepare config force)) : Tracks origin (w.prepare config force).1 := by
  unfold prepare
  split
  · exact h
  rename_i hallowed
  cases hplan : w.plan config with
  | error failure => exact h
  | ok planned =>
    obtain ⟨state', newGrub⟩ := planned
    unfold Tracks Clean at *
    cases hsaved : w.saved with
    | none =>
      rw [hsaved] at h hclean
      obtain ⟨hgrub, hfiles⟩ := h
      have hfile : ∀ cpu setting, w.file cpu setting = origin.file cpu setting := by
        intro cpu setting
        rw [file, hfiles, file]
      refine Undoable.of_plan hplan ?_ (fun cpu setting => by rw [hfile])
        fun cpu setting => (value_congr (hfile cpu setting).symm).symm
      rw [universalNewlines_eq_self hclean, hgrub]
    | some state =>
      rw [hsaved] at h hclean
      have hforce : force = true := by simpa [hsaved] using hallowed
      obtain ⟨hgrub, hcurrent⟩ := hclean hforce
      refine Undoable.of_plan hplan (hgrub.trans h.grub) h.present ?_
      intro cpu setting
      rcases h.values cpu setting with heq | ⟨⟨values, hmem⟩, _⟩
      · exact heq
      · have hown := h.recorded _ hmem
        rw [hcurrent _ hmem] at hown
        exact congrFun hown setting

omit [Shlex] in
theorem Tracks.frame (h : Tracks origin w) (hsaved : w'.saved = w.saved) (hgrub : w'.grub = w.grub)
    (hfreq : w'.cpufreq = w.cpufreq) : Tracks origin w' := by
  obtain ⟨hostCpus, grub, cpufreq, irq, saved⟩ := w
  obtain ⟨hostCpus', grub', cpufreq', irq', saved'⟩ := w'
  dsimp only at hsaved hgrub hfreq
  subst hsaved hgrub hfreq
  unfold Tracks at *
  cases saved' with
  | none => exact h
  | some state => exact ⟨h.grub, h.recorded, h.present, h.values⟩

omit [Shlex] in
theorem applyRuntime_tracks (h : Tracks origin w) (hclean : w.Clean .applyRuntime) :
    Tracks origin w.applyRuntime.1 := by
  unfold applyRuntime
  split
  · exact h
  rename_i state hsaved
  unfold Tracks at h
  rw [hsaved] at h
  obtain ⟨hpresent, hvalues⟩ := setFixedCpufreq_keeps
    (K := fun cpu => ∃ values, (cpu, values) ∈ state.cpufreq)
    (fun entry hentry => ⟨⟨entry.2, hentry⟩, h.recorded entry hentry⟩)
    (fun entry hentry hmax setting hthere =>
      hclean state hsaved entry hentry hmax setting (by rwa [h.present]))
    h.present h.values
  have hfixed : Tracks origin (w.setFixedCpufreq state.cpufreq).1 := by
    unfold Tracks
    rw [setFixedCpufreq_saved, hsaved]
    exact ⟨h.grub, h.recorded, hpresent, hvalues⟩
  generalize w.setFixedCpufreq state.cpufreq = fixed at hfixed
  obtain ⟨w', result⟩ := fixed
  cases result with
  | error failure => exact hfixed
  | ok _ =>
    dsimp only
    generalize (if state.irqCpus = [] then state.housekeepingCpus else state.irqCpus) = irqCpus
    split
    · exact hfixed
    · obtain ⟨hsaved', hgrub', hfreq'⟩ :=
        applyIrqIsolation_frame (w := w') irqCpus state.targetCpus
      exact hfixed.frame hsaved' hgrub' hfreq'

omit [Shlex] in
/-- What `restore` leaves when it has found a saved state. -/
theorem restore_undone (h : Undoable origin w state) (hsaved : w.saved = some state) :
    Undone origin w.restore.1 := by
  unfold restore
  split
  · rename_i hnone
    rw [hsaved] at hnone
    cases hnone
  rename_i found hfound
  rw [hsaved] at hfound
  cases hfound
  refine ⟨?_, ?_⟩
  · exact (restoreCpufreq_grub state.cpufreq).trans h.grub
  · intro cpu setting
    exact restoreCpufreq_values (w := { w with grub := state.originalGrub })
      h.recorded h.present h.values cpu setting

theorem run_tracks {during : List Command} (h : Tracks origin w)
    (hclean : ∀ front command, front ++ [command] <+: during → (w.run front).Clean command)
    (hduring : .restore ∉ during) : Tracks origin (w.run during) := by
  induction during generalizing w with
  | nil => exact h
  | cons command during ih =>
    have hfirst : w.Clean command := hclean [] command (by simp)
    have hstep : Tracks origin (w.exec command).1 := by
      cases command with
      | prepare config force => exact prepare_tracks h hfirst
      | applyRuntime => exact applyRuntime_tracks h hfirst
      | restore => exact absurd mem_cons_self hduring
    refine ih hstep ?_ (fun hmem => hduring (mem_cons_of_mem _ hmem))
    intro front later hfront
    exact hclean (command :: front) later (cons_prefix_cons.mpr ⟨rfl, hfront⟩)

theorem run_append (front rest : List Command) : w.run (front ++ rest) = (w.run front).run rest :=
  foldl_append

end

end World

/-- In every run whose commands are all clean, a `restore` that finds a saved state leaves the GRUB
defaults and the frequency settings of all CPUs as they were when there was no saved state last. -/
theorem restore_undoes_isolation [Shlex] (start : World) {commands before during : List Command}
    (hclean : ∀ front command, front ++ [command] <+: commands →
      (start.run front).Clean command)
    (hsplit : commands = before ++ during ++ [.restore]) (hduring : .restore ∉ during)
    (hidle : (start.run before).saved = none)
    (hsaved : (start.run (before ++ during)).saved.isSome) :
    World.Undone (start.run before) (start.run commands) := by
  have hstart : World.Tracks (start.run before) (start.run before) := by
    unfold World.Tracks
    rw [hidle]
    exact ⟨rfl, fun _ => rfl⟩
  have htracks : World.Tracks (start.run before) ((start.run before).run during) := by
    refine World.run_tracks hstart ?_ hduring
    intro front command hfront
    rw [← World.run_append]
    refine hclean (before ++ front) command ?_
    rw [hsplit, append_assoc, append_assoc, prefix_append_right_inj]
    exact hfront.trans (prefix_append _ _)
  rw [← World.run_append] at htracks
  obtain ⟨state, hstate⟩ := isSome_iff_exists.mp hsaved
  unfold World.Tracks at htracks
  rw [hstate] at htracks
  rw [hsplit, World.run_append]
  exact World.restore_undone htracks hstate

/-- A splitter that is right for values without quotes. -/
@[reducible] def plainShlex : Shlex := ⟨fun value => .ok ((split ' ' value).filter (· ≠ []))⟩

/-- Two CPUs that save power. -/
def idleHost : World where
  hostCpus := [0, 1]
  grub := "GRUB_CMDLINE_LINUX_DEFAULT=\"quiet\"\n".toList
  cpufreq cpu := if cpu < 2 then some fun
    | .scalingGovernor => some "powersave\n".toList
    | .scalingMinFreq => some "800000\n".toList
    | .scalingMaxFreq => some "3000000\n".toList
    else none
  irq := [(.smpAffinityList 9, "0-1\n".toList)]
  saved := none

def secondCpu : Config := ⟨some "1".toList, none, []⟩

def isolationRound : List Command := [.prepare secondCpu false, .applyRuntime, .restore]

theorem restore_undoes_isolation_round :
    (@World.run plainShlex idleHost [.prepare secondCpu false, .applyRuntime]).value 1
        .scalingGovernor = "performance".toList ∧
      World.Undone idleHost (@World.run plainShlex idleHost isolationRound) := by
  refine ⟨by decide +kernel, ?_⟩
  refine @restore_undoes_isolation plainShlex idleHost isolationRound []
    [.prepare secondCpu false, .applyRuntime] ?_ rfl (by decide) rfl (by decide +kernel)
  intro front command hfront
  rcases front with _ | ⟨first, _ | ⟨second, _ | ⟨third, rest⟩⟩⟩
  all_goals simp [isolationRound] at hfront
  · subst hfront
    change '\r' ∉ idleHost.grub
    decide +kernel
  · obtain ⟨rfl, rfl⟩ := hfront
    rintro state hsaved entry hentry - setting -
    have hentries : (@World.run plainShlex idleHost [.prepare secondCpu false]).saved.map
        (fun state => state.cpufreq) = some [(1, idleHost.value 1)] := rfl
    rw [hsaved, map_some, some.injEq] at hentries
    rw [hentries, mem_singleton] at hentry
    subst hentry
    cases setting <;> decide +kernel
  · obtain ⟨rfl, rfl, rfl⟩ := hfront
    trivial

/-- A forced `prepare` saves the isolated host as the original one. -/
theorem forced_prepare_loses_original :
    ∃ commands, commands = [.prepare secondCpu false, .applyRuntime, .prepare secondCpu true] ∧
      idleHost.saved = none ∧ (@World.run plainShlex idleHost commands).saved.isSome ∧
      (@World.run plainShlex idleHost (commands ++ [.restore])).grub ≠ idleHost.grub ∧
      (@World.run plainShlex idleHost (commands ++ [.restore])).value 1 .scalingGovernor ≠
        idleHost.value 1 .scalingGovernor := by
  refine ⟨_, rfl, rfl, ?_, ?_, ?_⟩ <;> decide +kernel

end ScxAgent.Bench.Isolation
