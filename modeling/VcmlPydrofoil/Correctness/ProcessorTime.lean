import VcmlPydrofoil.Correctness.CycleAccounting
import VcmlPydrofoil.Model.ProcessorThread

/-! The time of the processor thread on the glue code: it is the step counter in clock cycles, and
each synchronization ends a quantum. A step counts itself before it runs, so that CPUs whose steps
raise do not stop the clock.
-/

namespace VcmlPydrofoil

open Interaction (Program)

variable {χ ω β : Type} {ext : Pydrofoil χ} {bus : Bus β}

-----------------------------------------------------------------------------------------
-- The core
-----------------------------------------------------------------------------------------

namespace Sequential

variable {core : Sequential (World χ) β} {steps : Nat}

/-- The core has a CPU, and this is its counter. -/
def Counts (core : Sequential (World χ) β) (steps : Nat) : Prop :=
  ∃ object cpu, core.object? = some object ∧ object.cpu = some cpu ∧ object.steps = steps

/-- A counter that fits the `int` is returned as it is. -/
theorem Counts.cycleCount (ext : Pydrofoil χ) (bus : Bus β) (counts : core.Counts steps)
    (fits : steps < 2 ^ 31)
    : ∃ next : Sequential (World χ) β,
        ProcessorThread.cycleCount (gluePlatform ext bus) core = (BitVec.ofNat 64 steps, next)
        ∧ next.Counts steps := by
  obtain ⟨object, cpu, live, built, rfl⟩ := counts
  have performed
      : ProcessorThread.cycleCount (gluePlatform ext bus) core
        = ((core.handle (gluePlatform ext bus) (Operation.cycleCount.task 0)).value,
            core.handle (gluePlatform ext bus) (Operation.cycleCount.task 0)) := rfl
  have reported : reportedCycles object.steps = BitVec.ofNat 64 object.steps := by
    apply BitVec.eq_of_toNat_eq
    rw [(reportedCycles_iff _).mpr (Or.inl fits), BitVec.toNat_ofNat]
    omega
  rw [performed, handle_getCycles live]
  dsimp only
  have still := object?_updated live
    { core with
      py := core.py.update core.cpu object
      nCycles := ((toUInt64 object.steps).getD 0).setWidth 32
      values := core.values
        ++ [(((toUInt64 object.steps).getD 0).setWidth 32 : BitVec 32).signExtend 64] } rfl rfl
  refine ⟨_, Prod.ext ?_ rfl, object, cpu, still, built, rfl⟩
  unfold reportedCycles storedCycles at reported
  simp only [Sequential.value, List.getLast?_append, List.getLast?_singleton, Option.some_or,
    Option.getD_some, reported]

/-- The loop of `simulate` counts one step at least, also when the first one raises. -/
theorem body_simulate_counts (answer : Environment ω) (env : ω) {object : C χ} {cpu : Cpu χ}
    (built : object.cpu = some cpu) (cycles : BitVec 64) (positive : 0 < cycles.toNat)
    : let out := ((EntryPoint.simulate cycles).body ext).runIn answer object env
      (∃ last, out.1.2.cpu = some last)
      ∧ ∃ more, 0 < more ∧ more ≤ cycles.toNat ∧ out.1.2.steps = object.steps + more := by
  obtain ⟨bounded, _, counted, still⟩ := @times_step _ _ ext answer object env _ built cycles.toNat
  unfold EntryPoint.body
  rw [Program.runIn_returning]
  refine ⟨still, _, ?_, ?_, counted.trans (Nat.add_assoc ..)⟩
  · split <;> omega
  · split <;> omega

/-- A simulation counts one step at least, and no more than it was asked for. -/
theorem Counts.simulate (ext : Pydrofoil χ) (bus : Bus β) (counts : core.Counts steps)
    (cycles : BitVec 64) (positive : 0 < cycles.toNat)
    : ∃ more,
        0 < more
        ∧ more ≤ cycles.toNat
        ∧ (core.perform (gluePlatform ext bus) (.simulate cycles)).2.Counts (steps + more) := by
  obtain ⟨object, cpu, live, built, rfl⟩ := counts
  obtain ⟨⟨last, still⟩, more, first, bounded, counted⟩ :=
    body_simulate_counts (invoke (gluePlatform ext bus) true) core built cycles positive
  obtain ⟨sameCpu, _, _⟩ := run_invoke_keeps ext bus true
    ((EntryPoint.simulate cycles).body ext) object core
  have handled
      : (core.perform (gluePlatform ext bus) (.simulate cycles)).2
        = core.handle (gluePlatform ext bus) ((Operation.simulate cycles).task 0) := rfl
  refine ⟨more, first, bounded, ?_⟩
  rw [handled, handle_simulate live]
  refine ⟨_, last, ?_, still, counted⟩
  unfold object? at live ⊢
  dsimp only
  rw [sameCpu]
  exact World.object?_update (World.object?_update live _) _

end Sequential

-----------------------------------------------------------------------------------------
-- The thread
-----------------------------------------------------------------------------------------

namespace ProcessorThread

variable {timing : Timing} {thread : ProcessorThread (World χ) β}
variable {counted lag cycles time steps : Nat}

/-- `m_cycle_count` is a former value of the counter, which has since gone on by `lag`. -/
structure Keeps (thread : ProcessorThread (World χ) β) (counted lag cycles time : Nat) : Prop where
  counts : thread.core.Counts (counted + lag)
  cycleCount : thread.local_time.cycleCount = BitVec.ofNat 64 counted
  cycles : thread.local_time.cycles = cycles
  time : thread.time = time

/-- The local time catches up with the counter. -/
theorem Keeps.localTime (ext : Pydrofoil χ) (bus : Bus β) (timing : Timing)
    (keeps : thread.Keeps counted lag cycles time) (fits : counted + lag < 2 ^ 31)
    : ∃ next : ProcessorThread (World χ) β,
        thread.localTime (gluePlatform ext bus) timing
          = some ((cycles + lag) * timing.clockCycle, next)
        ∧ next.Keeps (counted + lag) 0 (cycles + lag) time := by
  obtain ⟨core, returned, counts⟩ := keeps.counts.cycleCount ext bus fits
  have former : (BitVec.ofNat 64 counted).toNat = counted := by
    rw [BitVec.toNat_ofNat]
    omega
  have current : (BitVec.ofNat 64 (counted + lag)).toNat = counted + lag := by
    rw [BitVec.toNat_ofNat]
    omega
  have up : BitVec.ofNat 64 counted ≤ BitVec.ofNat 64 (counted + lag) := by
    rw [BitVec.le_def, former, current]
    omega
  have updated
      : thread.local_time.update (BitVec.ofNat 64 (counted + lag))
        = some { cycleCount := BitVec.ofNat 64 (counted + lag), cycles := cycles + lag } := by
    unfold LocalTime.update
    rw [keeps.cycleCount, keeps.cycles, if_neg (BitVec.not_lt.mpr up)]
    rw [BitVec.toNat_sub_of_le up, former, current, Nat.add_sub_cancel_left]
  unfold ProcessorThread.localTime
  rw [returned]
  dsimp only
  rw [updated]
  exact ⟨_, rfl, counts, rfl, rfl, keeps.time⟩

/-- The cycles that are asked for reach the end of the quantum, and no further cycle does. -/
theorem Keeps.numCycles (ext : Pydrofoil χ) (bus : Bus β) (clocked : 0 < timing.clockCycle)
    (keeps : thread.Keeps counted 0 cycles time) (fits : counted < 2 ^ 31)
    (within : cycles * timing.clockCycle < timing.quantum)
    : ∃ (left : Nat) (next : ProcessorThread (World χ) β),
        thread.numCycles (gluePlatform ext bus) timing = some (BitVec.ofNat 32 left, next)
        ∧ next.Keeps counted 0 cycles time
        ∧ 0 < left
        ∧ (cycles + left) * timing.clockCycle < timing.quantum + timing.clockCycle := by
  unfold ProcessorThread.numCycles
  by_cases longer : timing.quantum > timing.clockCycle
  · obtain ⟨first, read, keeps⟩ := keeps.localTime ext bus timing fits
    obtain ⟨second, again, keeps⟩ := keeps.localTime ext bus timing fits
    simp only [Nat.add_zero] at read again keeps
    simp only [longer, ↓reduceIte, read, Option.bind_some, within, again, Option.map_some]
    have split_time :=
      Nat.div_add_mod (timing.quantum - cycles * timing.clockCycle) timing.clockCycle
    have rest := Nat.mod_lt (timing.quantum - cycles * timing.clockCycle) clocked
    rw [Nat.mul_comm] at split_time
    by_cases exact_fit : (timing.quantum - cycles * timing.clockCycle) % timing.clockCycle = 0
    · rw [if_neg (not_not.mpr exact_fit)]
      refine ⟨_, second, rfl, keeps, ?_, ?_⟩
      · rw [exact_fit] at split_time
        refine Nat.pos_of_ne_zero fun zero => ?_
        rw [zero] at split_time
        omega
      · rw [Nat.add_mul]
        omega
    · rw [if_pos exact_fit]
      refine ⟨_, second, congrArg (fun left => some (left, second)) (BitVec.ofNat_add ..).symm,
        keeps, Nat.succ_pos _, ?_⟩
      rw [Nat.add_mul, Nat.add_mul, Nat.one_mul]
      omega
  · have none_left : cycles = 0 := by
      by_contra some_left
      have one : 1 * timing.clockCycle ≤ cycles * timing.clockCycle :=
        Nat.mul_le_mul_right _ (Nat.one_le_iff_ne_zero.mpr some_left)
      omega
    rw [if_neg longer]
    refine ⟨1, thread, rfl, keeps, Nat.one_pos, ?_⟩
    rw [none_left] at within ⊢
    omega

/-- No more cycles than those of one quantum, and one, end before this time. -/
theorem le_quantum_cycles {all : Nat} (timing : Timing) (clocked : 0 < timing.clockCycle)
    (ends : all * timing.clockCycle < timing.quantum + timing.clockCycle)
    : all ≤ timing.quantum / timing.clockCycle + 1 := by
  rw [← Nat.add_div_right _ clocked, Nat.le_div_iff_mul_le clocked]
  exact Nat.le_of_lt ends

/-- The core's count before and after a simulation gives the steps that have started. -/
theorem Keeps.simulateCycles (ext : Pydrofoil χ) (bus : Bus β)
    (keeps : thread.Keeps counted 0 cycles time) (asked : BitVec 64) (positive : 0 < asked.toNat)
    (fits : counted + asked.toNat < 2 ^ 31)
    : ∃ (more : Nat) (core : Sequential (World χ) β),
        ProcessorThread.simulateCycles (gluePlatform ext bus) thread.core asked
          = (BitVec.ofNat 64 more, core)
        ∧ { thread with core }.Keeps counted more cycles time
        ∧ 0 < more
        ∧ more ≤ asked.toNat := by
  obtain ⟨first, before, counts⟩ := keeps.counts.cycleCount ext bus (by omega)
  obtain ⟨more, positive, bounded, counts⟩ := counts.simulate ext bus asked positive
  obtain ⟨last, after, counts⟩ := counts.cycleCount ext bus (by omega)
  refine ⟨more, last, ?_, ⟨counts, keeps.cycleCount, keeps.cycles, keeps.time⟩, positive, bounded⟩
  unfold ProcessorThread.simulateCycles
  rw [before]
  dsimp only
  rw [after, Nat.add_zero, BitVec.ofNat_add, BitVec.add_comm, BitVec.add_sub_cancel]

/-- An iteration of the loop lets some steps start, and ends before one cycle after the quantum. It
is the last one when the quantum has ended.
-/
theorem Keeps.syncStep (ext : Pydrofoil χ) (bus : Bus β) (clocked : 0 < timing.clockCycle)
    (keeps : thread.Keeps (steps + cycles) 0 cycles time)
    (within : cycles * timing.clockCycle < timing.quantum)
    (fits : steps + (timing.quantum / timing.clockCycle + 1) < 2 ^ 31)
    : ∃ (more : Nat) (next : ProcessorThread (World χ) β),
        thread.syncStep (gluePlatform ext bus) timing
          = some (!decide ((cycles + more) * timing.clockCycle ≥ timing.quantum), next)
        ∧ next.Keeps (steps + (cycles + more)) 0 (cycles + more) time
        ∧ 0 < more
        ∧ (cycles + more) * timing.clockCycle < timing.quantum + timing.clockCycle := by
  have few : cycles ≤ timing.quantum / timing.clockCycle + 1 :=
    le_quantum_cycles timing clocked (Nat.lt_add_right _ within)
  obtain ⟨left, thread, asked, keeps, positive, ends⟩ :=
    keeps.numCycles ext bus clocked (by omega) within
  have all := le_quantum_cycles timing clocked ends
  have widened : ((BitVec.ofNat 32 left).setWidth 64).toNat = left := by
    rw [BitVec.toNat_setWidth, BitVec.toNat_ofNat]
    omega
  obtain ⟨more, core, simulated, keeps, started, bounded⟩ :=
    keeps.simulateCycles ext bus ((BitVec.ofNat 32 left).setWidth 64) (by omega) (by omega)
  have moved : (BitVec.ofNat 64 more).setWidth 32 ≠ (0 : BitVec 32) := by
    intro zero
    have value := congrArg BitVec.toNat zero
    rw [BitVec.toNat_setWidth, BitVec.toNat_ofNat] at value
    have none_left : (0 : BitVec 32).toNat = 0 := rfl
    omega
  obtain ⟨next, read, keeps⟩ := keeps.localTime ext bus timing (by omega)
  unfold ProcessorThread.syncStep
  rw [asked, Option.bind_some]
  dsimp only
  rw [simulated]
  dsimp only
  rw [if_neg moved, Option.bind_some, read, Option.map_some]
  refine ⟨more, next, rfl, Nat.add_assoc .. ▸ keeps, started, ?_⟩
  refine Nat.lt_of_le_of_lt (Nat.mul_le_mul_right _ ?_) ends
  omega

/-- The synchronization waits for the local time and starts over from zero. -/
theorem Keeps.sync (ext : Pydrofoil χ) (bus : Bus β) (timing : Timing)
    (keeps : thread.Keeps counted 0 cycles time) (fits : counted < 2 ^ 31)
    : ∃ next : ProcessorThread (World χ) β,
        thread.sync (gluePlatform ext bus) timing = some next
        ∧ next.Keeps counted 0 0 (time + cycles * timing.clockCycle) := by
  obtain ⟨next, read, keeps⟩ := keeps.localTime ext bus timing fits
  unfold ProcessorThread.sync
  rw [read]
  refine ⟨_, rfl, keeps.counts, keeps.cycleCount, rfl, ?_⟩
  show next.time + _ = _
  rw [keeps.time, Nat.add_zero]

/-- The loop ends, after a quantum and before one more cycle. By induction on the fuel: each
iteration lets a step start, and not more of them than the cycles of a quantum fit.
-/
theorem Keeps.processorThreadSync (ext : Pydrofoil χ) (bus : Bus β)
    (clocked : 0 < timing.clockCycle) (fuel : Nat)
    (keeps : thread.Keeps (steps + cycles) 0 cycles time)
    (within : cycles * timing.clockCycle < timing.quantum)
    (fits : steps + (timing.quantum / timing.clockCycle + 1) < 2 ^ 31)
    (enough : timing.quantum / timing.clockCycle < fuel + cycles)
    : ∃ (all : Nat) (next : ProcessorThread (World χ) β),
        thread.processorThreadSync (gluePlatform ext bus) timing fuel = some next
        ∧ next.Keeps (steps + all) 0 0 (time + all * timing.clockCycle)
        ∧ timing.quantum ≤ all * timing.clockCycle
        ∧ all * timing.clockCycle < timing.quantum + timing.clockCycle := by
  induction fuel generalizing thread cycles with
  | zero =>
      have few : cycles ≤ timing.quantum / timing.clockCycle := by
        rw [Nat.le_div_iff_mul_le clocked]
        exact Nat.le_of_lt within
      omega
  | succ fuel ih =>
      obtain ⟨more, next, stepped, keeps, started, ends⟩ := keeps.syncStep ext bus clocked within fits
      unfold ProcessorThread.processorThreadSync
      rw [stepped, Option.bind_some]
      by_cases passed : (cycles + more) * timing.clockCycle ≥ timing.quantum
      · have all := le_quantum_cycles timing clocked ends
        obtain ⟨last, waited, keeps⟩ := keeps.sync ext bus timing (by omega)
        simp only [passed, decide_true, Bool.not_true, Bool.false_eq_true, ↓reduceIte]
        exact ⟨cycles + more, last, waited, keeps, passed, ends⟩
      · simp only [passed, decide_false, Bool.not_false, ↓reduceIte]
        exact ih keeps (Nat.lt_of_not_le passed) (by omega)

/-- The time stamp of a synchronized thread is that of the kernel. -/
theorem Keeps.localTimeStamp (ext : Pydrofoil χ) (bus : Bus β) (timing : Timing)
    (keeps : thread.Keeps counted 0 0 time) (fits : counted < 2 ^ 31)
    : ∃ next : ProcessorThread (World χ) β,
        thread.localTimeStamp (gluePlatform ext bus) timing = some (time, next)
        ∧ next.Keeps counted 0 0 time := by
  obtain ⟨next, read, keeps⟩ := keeps.localTime ext bus timing fits
  unfold ProcessorThread.localTimeStamp
  rw [read, Option.map_some]
  simp only [Nat.add_zero, Nat.zero_mul] at keeps ⊢
  exact ⟨next, by rw [keeps.time], keeps⟩

/-- An iteration of the thread is not stuck in time: it lasts a quantum, and less than one more
cycle.
-/
theorem Keeps.round (ext : Pydrofoil χ) (bus : Bus β) (clocked : 0 < timing.clockCycle)
    (lasting : 0 < timing.quantum) (fuel : Nat) (keeps : thread.Keeps steps 0 0 time)
    (fits : steps + (timing.quantum / timing.clockCycle + 1) < 2 ^ 31)
    (enough : timing.quantum / timing.clockCycle < fuel)
    : ∃ (all : Nat) (next : ProcessorThread (World χ) β),
        thread.round (gluePlatform ext bus) timing fuel = some next
        ∧ next.Keeps (steps + all) 0 0 (time + all * timing.clockCycle)
        ∧ timing.quantum ≤ all * timing.clockCycle
        ∧ all * timing.clockCycle < timing.quantum + timing.clockCycle := by
  have start : 0 * timing.clockCycle < timing.quantum := by omega
  have narrow : steps < 2 ^ 31 := Nat.lt_of_le_of_lt (Nat.le_add_right ..) fits
  obtain ⟨before, now, keeps⟩ := keeps.localTimeStamp ext bus timing narrow
  obtain ⟨all, synced, looped, keeps, lasts, ends⟩ :=
    Keeps.processorThreadSync ext bus clocked fuel keeps start fits enough
  have few := le_quantum_cycles timing clocked ends
  obtain ⟨after, stamp, keeps⟩ := keeps.localTimeStamp ext bus timing (by omega)
  have moved : ¬ time + all * timing.clockCycle = time := by omega
  unfold ProcessorThread.round
  rw [now, Option.bind_some]
  dsimp only
  rw [looped, Option.bind_some, stamp, Option.bind_some]
  dsimp only
  rw [if_neg moved]
  exact ⟨all, after, rfl, keeps, lasts, ends⟩

/-- The last of some iterations comes after the others, by induction on their number. -/
theorem rounds_succ {π β : Type} (vp : Platform π β) (timing : Timing) (fuel count : Nat)
    (thread : ProcessorThread π β)
    : thread.rounds vp timing fuel (count + 1)
      = (thread.rounds vp timing fuel count).bind (round vp timing fuel) := by
  induction count generalizing thread with
  | zero => exact Option.bind_fun_some (thread.round vp timing fuel)
  | succ count ih =>
      unfold rounds
      rw [Option.bind_assoc]
      exact congrArg _ (funext ih)

/-- Any number of iterations leaves the thread synchronized, with the time of the steps that have
started; by induction on their number.
-/
theorem Keeps.rounds (ext : Pydrofoil χ) (bus : Bus β) (clocked : 0 < timing.clockCycle)
    (lasting : 0 < timing.quantum) (fuel count : Nat) (keeps : thread.Keeps steps 0 0 time)
    (fits : steps + count * (timing.quantum / timing.clockCycle + 1) < 2 ^ 31)
    (enough : timing.quantum / timing.clockCycle < fuel)
    : ∃ (all : Nat) (next : ProcessorThread (World χ) β),
        thread.rounds (gluePlatform ext bus) timing fuel count = some next
        ∧ next.Keeps (steps + all) 0 0 (time + all * timing.clockCycle)
        ∧ all ≤ count * (timing.quantum / timing.clockCycle + 1) := by
  induction count with
  | zero => exact ⟨0, thread, rfl, by simpa using keeps, Nat.zero_le _⟩
  | succ count ih =>
      rw [Nat.succ_mul] at fits
      obtain ⟨all, middle, ran, kept, few⟩ :=
        ih (Nat.lt_of_le_of_lt (Nat.add_le_add_left (Nat.le_add_right ..) steps) fits)
      obtain ⟨more, next, another, kept, _, ends⟩ :=
        kept.round ext bus clocked lasting fuel (by omega) enough
      have bounded := le_quantum_cycles timing clocked ends
      refine ⟨all + more, next, ?_, ?_, ?_⟩
      · rw [rounds_succ, ran, Option.bind_some, another]
      · rw [Nat.add_mul, ← Nat.add_assoc, ← Nat.add_assoc]
        exact kept
      · rw [Nat.succ_mul]
        omega

/-- A synchronization comes at least a quantum after the one before, and less than a quantum and a
cycle after it.
-/
structure Paced (timing : Timing) (before after : ProcessorThread (World χ) β) : Prop where
  quantum : before.time + timing.quantum ≤ after.time
  cycle : after.time < before.time + timing.quantum + timing.clockCycle

/-- Each of the iterations is paced. -/
theorem Keeps.paced (ext : Pydrofoil χ) (bus : Bus β) (clocked : 0 < timing.clockCycle)
    (lasting : 0 < timing.quantum) (fuel : Nat) {count k : Nat} (earlier : k < count)
    (keeps : thread.Keeps steps 0 0 time)
    (fits : steps + count * (timing.quantum / timing.clockCycle + 1) < 2 ^ 31)
    (enough : timing.quantum / timing.clockCycle < fuel)
    : ∃ before after : ProcessorThread (World χ) β,
        thread.rounds (gluePlatform ext bus) timing fuel k = some before
        ∧ thread.rounds (gluePlatform ext bus) timing fuel (k + 1) = some after
        ∧ Paced timing before after := by
  have fewer := Nat.mul_le_mul_right (timing.quantum / timing.clockCycle + 1) (Nat.le_of_lt earlier)
  have room := Nat.mul_le_mul_right (timing.quantum / timing.clockCycle + 1) earlier
  rw [Nat.succ_mul] at room
  obtain ⟨all, before, ran, kept, few⟩ :=
    keeps.rounds ext bus clocked lasting fuel k (by omega) enough
  obtain ⟨more, after, another, still, lasts, ends⟩ :=
    kept.round ext bus clocked lasting fuel (by omega) enough
  refine ⟨before, after, ran, ?_, ?_, ?_⟩
  · rw [rounds_succ, ran, Option.bind_some, another]
  · rw [kept.time, still.time]
    omega
  · rw [kept.time, still.time]
    omega

end ProcessorThread

/-- A thread on the CPU whose steps all raise. -/
def raisingThread : ProcessorThread (World Unit) Unit :=
  {
    core := {
      cpu := some 1, nCycles := 0, py := steppingWorld, bus := ()
      accesses := [], callbacks := [], values := []
    }
  }

end VcmlPydrofoil
