import VcmlPydrofoil.Model.Processor

/-! The thread of `vcml::processor` without `async` and without a debugger: how many cycles it asks
the core for, and how it keeps its local time. The memories of `system` have no latency, so that
the accesses of a simulation take no time. Times are in units of `sc_time`, below the 2^53 units for
which its arithmetic is exact.
-/

namespace VcmlPydrofoil

variable {π β : Type} (vp : Platform π β)

/-- The global quantum, and the cycle of the clock. -/
structure Timing where
  quantum : Nat
  clockCycle : Nat
  deriving DecidableEq

/-- A processor in the kernel: its core, its local time, and `sc_time_stamp()`. -/
structure ProcessorThread (π β : Type) where
  core : Sequential π β
  local_time : LocalTime := {}
  time : Nat := 0

namespace ProcessorThread

/-- `PydrofoilCore::cycle_count`. -/
def cycleCount (core : Sequential π β) : BitVec 64 × Sequential π β :=
  match core.perform vp .cycleCount with
  | (.cycles cycles, core) => (cycles, core)
  | (_, core) => (0, core)

/-- `tlm_host::local_time`, which updates it; `none` is the error "cycle count goes down". -/
def localTime (timing : Timing) (thread : ProcessorThread π β)
    : Option (Nat × ProcessorThread π β) :=
  let (cycles, core) := cycleCount vp thread.core
  (thread.local_time.update cycles).map fun local_time =>
    (local_time.cycles * timing.clockCycle, { thread with core, local_time })

/-- Lines 345–355 of `processor_thread_sync`: the cycles that are left in the quantum. -/
def numCycles (timing : Timing) (thread : ProcessorThread π β)
    : Option (BitVec 32 × ProcessorThread π β) :=
  if timing.quantum > timing.clockCycle then
    (thread.localTime vp timing).bind fun (local_time, thread) =>
      if timing.quantum > local_time then
        (thread.localTime vp timing).map fun (local_time, thread) =>
          let time_left := timing.quantum - local_time
          let num_cycles := BitVec.ofNat 32 (time_left / timing.clockCycle)
          (if time_left % timing.clockCycle ≠ 0 then num_cycles + 1 else num_cycles, thread)
      else some (1, thread)
  else some (1, thread)

/-- `processor::simulate_cycles`. -/
def simulateCycles (core : Sequential π β) (cycles : BitVec 64) : BitVec 64 × Sequential π β :=
  let (count, core) := cycleCount vp core
  let core := (core.perform vp (.simulate cycles)).2
  let (counted, core) := cycleCount vp core
  (counted - count, core)

/-- The body of the loop in `processor_thread_sync` with its condition: whether it goes on. `none` is
also a wait for less than no time.
-/
def syncStep (timing : Timing) (thread : ProcessorThread π β)
    : Option (Bool × ProcessorThread π β) :=
  (thread.numCycles vp timing).bind fun (num_cycles, thread) =>
    let (simulated, core) := simulateCycles vp thread.core (num_cycles.setWidth 64)
    let thread := { thread with core }
    let waited :=
      if simulated.setWidth 32 = (0 : BitVec 32) then
        (thread.localTime vp timing).bind fun (local_time, thread) =>
          if timing.quantum < local_time then none
          else some { thread with time := thread.time + (timing.quantum - local_time) }
      else some thread
    waited.bind fun thread =>
      (thread.localTime vp timing).map fun (local_time, thread) =>
        (!decide (local_time ≥ timing.quantum), thread)

/-- `tlm_host::sync`. -/
def sync (timing : Timing) (thread : ProcessorThread π β) : Option (ProcessorThread π β) :=
  (thread.localTime vp timing).map fun (local_time, thread) =>
    {
      thread with
      time := thread.time + local_time
      local_time := { thread.local_time with cycles := 0 }
    }

/-- `processor_thread_sync`, with at most `fuel` iterations of its loop. -/
def processorThreadSync (timing : Timing)
    : Nat → ProcessorThread π β → Option (ProcessorThread π β)
  | 0, _ => none
  | fuel + 1, thread =>
      (thread.syncStep vp timing).bind fun (goesOn, thread) =>
        if goesOn then processorThreadSync timing fuel thread else thread.sync vp timing

/-- `tlm_host::local_time_stamp`. -/
def localTimeStamp (timing : Timing) (thread : ProcessorThread π β)
    : Option (Nat × ProcessorThread π β) :=
  (thread.localTime vp timing).map fun (local_time, thread) => (thread.time + local_time, thread)

/-- One iteration of `processor_thread`; `none` is also the error "stuck in time". -/
def round (timing : Timing) (fuel : Nat) (thread : ProcessorThread π β)
    : Option (ProcessorThread π β) :=
  (thread.localTimeStamp vp timing).bind fun (now, thread) =>
    (thread.processorThreadSync vp timing fuel).bind fun thread =>
      (thread.localTimeStamp vp timing).bind fun (stamp, thread) =>
        if stamp = now then none else some thread

/-- Any number of iterations of `processor_thread`, while the simulation runs. -/
def rounds (timing : Timing) (fuel : Nat) : Nat → ProcessorThread π β → Option (ProcessorThread π β)
  | 0, thread => some thread
  | count + 1, thread => (thread.round vp timing fuel).bind (rounds timing fuel count)

end ProcessorThread

end VcmlPydrofoil
