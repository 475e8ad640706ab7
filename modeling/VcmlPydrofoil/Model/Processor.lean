import VcmlPydrofoil.Model.Sequential

/-! The part of `vcml::processor` that uses the core: its copy of the pc register and the hooks
that VCML calls before and during a simulation.
-/

namespace VcmlPydrofoil

variable {π β : Type} (vp : Platform π β)

/-- A processor: the core and the property `pc`, which `define_cpureg_rw(0, "pc", 8)` makes in the
constructor. A configured value replaces the one that was read from the core.
-/
structure Processor (π β : Type) where
  core : Sequential π β
  pcProperty : BitVec 64

namespace Processor

/-- `processor::write_cpureg_dbg` for the pc: the property follows an accepted write. -/
def writeCpuregDbg (processor : Processor π β) (buf : BitVec 64) : Bool × Processor π β :=
  let (returned, core) := processor.core.perform vp (.writeRegDbg 0 buf 8)
  match returned with
  | .written true => (true, { core, pcProperty := buf })
  | _ => (false, { processor with core })

/-- `processor::read_cpureg_dbg` for the pc. -/
def readCpuregDbg (processor : Processor π β) : Option (BitVec 64) × Processor π β :=
  let (returned, core) := processor.core.perform vp (.readRegDbg 0 8)
  match returned with
  | .register value => (value, { processor with core })
  | _ => (none, { processor with core })

/-- `processor::flush_cpuregs`: the only register is the pc. A failure is only logged. -/
def flushCpuregs (processor : Processor π β) : Processor π β :=
  (processor.writeCpuregDbg vp processor.pcProperty).2

/-- The constructor of `PydrofoilCore`, with the configured value of the property `pc`. -/
def construct (core : Sequential π β) (coreType : String) (configured : BitVec 64)
    : Processor π β :=
  { core := (core.perform vp (.construct coreType)).2, pcProperty := configured }

/-- `processor::before_end_of_elaboration`. -/
def beforeEndOfElaboration (processor : Processor π β) : Processor π β :=
  processor.flushCpuregs vp

/-- `PydrofoilCore::end_of_elaboration`. -/
def endOfElaboration (processor : Processor π β) : Processor π β :=
  { processor with core := (processor.core.perform vp .endOfElaboration).2 }

/-- `PydrofoilCore::reset`, on a reset pulse: the override has an empty body and does not call
`processor::reset`, which would set the property back and flush it.
-/
def reset (processor : Processor π β) : Processor π β := processor

/-- `processor::simulate_cycles`: the count is read before and after. -/
def simulateCycles (processor : Processor π β) (cycles : BitVec 64) : Processor π β :=
  let counted := (processor.core.perform vp .cycleCount).2
  let simulated := (counted.perform vp (.simulate cycles)).2
  { processor with core := (simulated.perform vp .cycleCount).2 }

end Processor

/-- What `processor` keeps for the local time: `m_cycle_count`, and the time in clock cycles. -/
structure LocalTime where
  cycleCount : BitVec 64 := 0
  cycles : Nat := 0
  deriving DecidableEq

/-- `processor::update_local_time` with the value of `cycle_count()`; `none` is the error "cycle
count goes down".
-/
def LocalTime.update (time : LocalTime) (cycles : BitVec 64) : Option LocalTime :=
  if cycles < time.cycleCount then none
  else some { cycleCount := cycles, cycles := time.cycles + (cycles - time.cycleCount).toNat }

namespace Processor

variable {vp} {processor : Processor π β}

/-- A write that the core accepts reaches the property. -/
theorem writeCpuregDbg_accepted {buf : BitVec 64}
    (accepted : (processor.core.perform vp (.writeRegDbg 0 buf 8)).1 = .written true)
    : processor.writeCpuregDbg vp buf
      = (true, {
          core := (processor.core.perform vp (.writeRegDbg 0 buf 8)).2
          pcProperty := buf
        }) := by
  unfold writeCpuregDbg
  rcases performed : processor.core.perform vp (.writeRegDbg 0 buf 8) with ⟨returned, core⟩
  rw [performed] at accepted
  obtain rfl : returned = .written true := accepted
  rfl

/-- A read that the core answers is returned. -/
theorem readCpuregDbg_returned {value : Option (BitVec 64)}
    (returned : (processor.core.perform vp (.readRegDbg 0 8)).1 = .register value)
    : processor.readCpuregDbg vp
      = (value, { processor with core := (processor.core.perform vp (.readRegDbg 0 8)).2 }) := by
  unfold readCpuregDbg
  rcases performed : processor.core.perform vp (.readRegDbg 0 8) with ⟨result, core⟩
  rw [performed] at returned
  obtain rfl : result = .register value := returned
  rfl

end Processor

end VcmlPydrofoil
