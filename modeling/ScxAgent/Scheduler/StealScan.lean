import ScxAgent.Scheduler.Dispatch

/-!
# The scan for a CPU to steal from

`gated_steal` visits a window of the other CPUs that rotates with a cursor and keeps the best source
it has seen: the nearest in the topology, among those the one with the largest surplus, and among
those the first.
-/

namespace ScxAgent.Scheduler

open List UInt64

variable {T : Type} {cfg : Config} {s : Sched T} {dstCpu : Cpu} {k : WorkloadClass} {dst n r : ℕ}
  {cursor : UInt64}

section Window

/-- The CPU that is `r + 1` places after another one, as a number. -/
theorem rotate_eq (hdst : dst < n) (hr : r < n - 1) :
    (dst + 1 + r) % n = if dst + 1 + r < n then dst + 1 + r else dst + 1 + r - n := by
  split_ifs with hinside
  · exact Nat.mod_eq_of_lt hinside
  · rw [Nat.mod_eq_sub_mod (by omega), Nat.mod_eq_of_lt (by omega)]

theorem rotate_ne (hdst : dst < n) (hr : r < n - 1) : (dst + 1 + r) % n ≠ dst := by
  rw [rotate_eq hdst hr]
  split_ifs <;> omega

theorem rotate_inj {r' : ℕ} (hdst : dst < n) (hr : r < n - 1) (hr' : r' < n - 1)
    (h : (dst + 1 + r) % n = (dst + 1 + r') % n) : r = r' := by
  rw [rotate_eq hdst hr, rotate_eq hdst hr'] at h
  split_ifs at h <;> omega

/-- Fewer than `m` consecutive numbers are different modulo `m`. -/
theorem mod_inj_of_window {c i j m : ℕ} (hi : i < m) (hj : j < m) (h : (c + i) % m = (c + j) % m) :
    i = j := by
  have hmod : i % m = j % m := Nat.ModEq.add_left_cancel' c h
  rwa [Nat.mod_eq_of_lt hi, Nat.mod_eq_of_lt hj] at hmod

/-- How many CPUs one scan visits. -/
def scanLength (cfg : Config) (nrCpuIds : ℕ) : ℕ :=
  min agentStealScanMax (min cfg.stealScan.toNat (nrCpuIds - 1))

/-- The place of the `i`-th CPU of a scan among those after the destination. -/
theorem toNat_cursor {i : ℕ} (hn : n < 2 ^ 64) (hi : cursor.toNat + i < 2 ^ 64) :
    ((cursor + UInt64.ofNat i) % UInt64.ofNat n).toNat = (cursor.toNat + i) % n := by
  rw [UInt64.toNat_mod, UInt64.toNat_add, UInt64.toNat_ofNat', UInt64.toNat_ofNat',
    Nat.mod_eq_of_lt (by omega : i < 2 ^ 64), Nat.mod_eq_of_lt hi, Nat.mod_eq_of_lt hn]

theorem scanned_eq (hnr : s.nrCpuIds ≤ 2 ^ 31)
    (hcursor : cursor.toNat + scanLength cfg s.nrCpuIds ≤ 2 ^ 64) :
    s.scanned cfg dstCpu cursor = (range (scanLength cfg s.nrCpuIds)).map fun i =>
      (dstCpu + 1 + (cursor.toNat + i) % (s.nrCpuIds - 1)) % s.nrCpuIds := by
  refine map_congr_left fun i hi => ?_
  rw [mem_range] at hi
  rw [toNat_cursor (by omega) (by unfold scanLength at hcursor; omega)]

theorem scanned_sound (hnr : s.nrCpuIds ≤ 2 ^ 31) (hdst : dstCpu < s.nrCpuIds)
    (hcursor : cursor.toNat + scanLength cfg s.nrCpuIds ≤ 2 ^ 64) :
    (s.scanned cfg dstCpu cursor).Nodup ∧
      ∀ srcCpu ∈ s.scanned cfg dstCpu cursor, srcCpu < s.nrCpuIds ∧ srcCpu ≠ dstCpu := by
  rw [scanned_eq hnr hcursor]
  have hplace {i : ℕ} (hi : i < scanLength cfg s.nrCpuIds) :
      i < s.nrCpuIds - 1 ∧ (cursor.toNat + i) % (s.nrCpuIds - 1) < s.nrCpuIds - 1 := by
    unfold scanLength at hi
    exact ⟨by omega, Nat.mod_lt _ (by omega)⟩
  constructor
  · refine Nodup.map_on ?_ nodup_range
    intro i hi j hj h
    rw [mem_range] at hi hj
    exact mod_inj_of_window (hplace hi).1 (hplace hj).1
      (rotate_inj hdst (hplace hi).2 (hplace hj).2 h)
  · intro srcCpu hsrc
    rw [mem_map] at hsrc
    obtain ⟨i, hi, rfl⟩ := hsrc
    rw [mem_range] at hi
    exact ⟨Nat.mod_lt _ (Nat.zero_lt_of_lt hdst), rotate_ne hdst (hplace hi).2⟩

end Window

variable {best : Sched.StealChoice}

section Choice

/-- The best of the CPUs that pass the tests: the nearest, then the one with the largest surplus, then
the first. -/
structure FirstBest (cfg : Config) (s : Sched T) (dstCpu : Cpu) (k : WorkloadClass) (srcs : List Cpu)
    (cpu : Cpu) (surplus : UInt64) : Prop where
  passes : s.stealSurplus cfg dstCpu cpu k = some surplus
  nearest : ∀ src ∈ srcs, s.stealSurplus cfg dstCpu src k ≠ none →
    s.topologyTier dstCpu cpu ≤ s.topologyTier dstCpu src
  largest : ∀ src ∈ srcs, ∀ other, s.stealSurplus cfg dstCpu src k = some other →
    s.topologyTier dstCpu src = s.topologyTier dstCpu cpu → other ≤ surplus
  first : ∃ before after, srcs = before ++ cpu :: after ∧
    ∀ src ∈ before, ∀ other, s.stealSurplus cfg dstCpu src k = some other →
      s.topologyTier dstCpu src = s.topologyTier dstCpu cpu → other < surplus

/-- What a scan of the CPUs has found. -/
def ScanOk (cfg : Config) (s : Sched T) (dstCpu : Cpu) (k : WorkloadClass) (srcs : List Cpu) :
    Sched.StealChoice → Prop
  | none => ∀ src ∈ srcs, s.stealSurplus cfg dstCpu src k = none
  | some (cpu, tier, surplus) =>
    tier = s.topologyTier dstCpu cpu ∧ FirstBest cfg s dstCpu k srcs cpu surplus

theorem topologyTier_le (s : Sched T) (dstCpu srcCpu : Cpu) : s.topologyTier dstCpu srcCpu ≤ 2 := by
  unfold Sched.topologyTier
  split
  · split_ifs <;> omega
  · exact le_rfl

variable {srcs : List Cpu} {src cpu : Cpu} {surplus : UInt64}

/-- A CPU that is not better than the best one does not change it. -/
theorem FirstBest.keep (h : FirstBest cfg s dstCpu k srcs cpu surplus)
    (hnearest : s.stealSurplus cfg dstCpu src k ≠ none →
      s.topologyTier dstCpu cpu ≤ s.topologyTier dstCpu src)
    (hlargest : ∀ other, s.stealSurplus cfg dstCpu src k = some other →
      s.topologyTier dstCpu src = s.topologyTier dstCpu cpu → other ≤ surplus) :
    FirstBest cfg s dstCpu k (srcs ++ [src]) cpu surplus where
  passes := h.passes
  nearest := by
    intro src' hsrc'
    rcases mem_append.mp hsrc' with hold | hnew
    · exact h.nearest src' hold
    · rw [mem_singleton.mp hnew]
      exact hnearest
  largest := by
    intro src' hsrc'
    rcases mem_append.mp hsrc' with hold | hnew
    · exact h.largest src' hold
    · rw [mem_singleton.mp hnew]
      exact hlargest
  first := by
    obtain ⟨before, after, hsplit, hfirst⟩ := h.first
    exact ⟨before, after ++ [src], by rw [hsplit, append_assoc, cons_append], hfirst⟩

/-- A CPU that is better than all before it is the best one. -/
theorem FirstBest.take (hpasses : s.stealSurplus cfg dstCpu src k = some surplus)
    (hbetter : ∀ src' ∈ srcs, ∀ other, s.stealSurplus cfg dstCpu src' k = some other →
      s.topologyTier dstCpu src < s.topologyTier dstCpu src' ∨
        s.topologyTier dstCpu src = s.topologyTier dstCpu src' ∧ other < surplus) :
    FirstBest cfg s dstCpu k (srcs ++ [src]) src surplus where
  passes := hpasses
  nearest := by
    intro src' hsrc' htests
    rcases mem_append.mp hsrc' with hold | hnew
    · obtain ⟨other, hother⟩ := Option.ne_none_iff_exists'.mp htests
      rcases hbetter src' hold other hother with hnear | ⟨hsame, -⟩
      · exact hnear.le
      · exact hsame.le
    · rw [mem_singleton.mp hnew]
  largest := by
    intro src' hsrc' other hother hsame
    rcases mem_append.mp hsrc' with hold | hnew
    · rcases hbetter src' hold other hother with hnear | ⟨-, hless⟩
      · omega
      · rw [lt_iff_toNat_lt] at hless
        rw [le_iff_toNat_le]
        omega
    · rw [mem_singleton.mp hnew, hpasses, Option.some.injEq] at hother
      rw [hother]
      exact UInt64.le_refl _
  first := by
    refine ⟨srcs, [], rfl, fun src' hsrc' other hother hsame => ?_⟩
    rcases hbetter src' hsrc' other hother with hnear | ⟨-, hless⟩
    · omega
    · exact hless

theorem ScanOk.step (h : ScanOk cfg s dstCpu k srcs best) (src : Cpu) :
    ScanOk cfg s dstCpu k (srcs ++ [src]) (s.scanSource cfg dstCpu k best src) := by
  have htier := topologyTier_le s dstCpu src
  unfold Sched.scanSource
  cases best with
  | none =>
    rw [if_neg (by simp only; omega)]
    cases hpasses : s.stealSurplus cfg dstCpu src k with
    | none =>
      intro src' hsrc'
      rcases mem_append.mp hsrc' with hold | hnew
      · exact h src' hold
      · rw [mem_singleton.mp hnew, hpasses]
    | some surplus =>
      refine ⟨rfl, FirstBest.take hpasses fun src' hsrc' other hother => ?_⟩
      rw [h src' hsrc'] at hother
      cases hother
  | some choice =>
    obtain ⟨cpu, tier, bestSurplus⟩ := choice
    obtain ⟨rfl, hbest⟩ := h
    dsimp only
    split_ifs with hfar
    · exact ⟨rfl, hbest.keep (fun _ => by omega) fun _ _ hsame => by omega⟩
    · cases hpasses : s.stealSurplus cfg dstCpu src k with
      | none =>
        refine ⟨rfl, hbest.keep (fun htests => absurd hpasses htests) fun other hother => ?_⟩
        rw [hpasses] at hother
        cases hother
      | some surplus =>
        dsimp only
        split_ifs with hbetter
        · refine ⟨rfl, FirstBest.take hpasses fun src' hsrc' other hother => ?_⟩
          have hnearest := hbest.nearest src' hsrc' (by rw [hother]; nofun)
          have hlargest := hbest.largest src' hsrc' other hother
          rw [gt_iff_lt, lt_iff_toNat_lt] at hbetter
          rw [le_iff_toNat_le] at hlargest
          rw [lt_iff_toNat_lt]
          omega
        · refine ⟨rfl, hbest.keep (fun _ => by omega) fun other hother hsame => ?_⟩
          rw [hpasses, Option.some.injEq] at hother
          rw [← hother, le_iff_toNat_le]
          rw [gt_iff_lt, lt_iff_toNat_lt] at hbetter
          omega

theorem scanOk_nil (cfg : Config) (s : Sched T) (dstCpu : Cpu) (k : WorkloadClass) :
    ScanOk cfg s dstCpu k [] none :=
  nofun

theorem ScanOk.fold (h : ScanOk cfg s dstCpu k srcs best) (rest : List Cpu) :
    ScanOk cfg s dstCpu k (srcs ++ rest) (rest.foldl (s.scanSource cfg dstCpu k) best) := by
  induction rest generalizing srcs best with
  | nil =>
    rw [append_nil]
    exact h
  | cons src rest ih =>
    have hstep := ih (h.step src)
    rwa [append_assoc] at hstep

end Choice

end ScxAgent.Scheduler
