import Mathlib.Algebra.Group.Int.Defs
import Mathlib.Algebra.Group.Nat.Defs
import VcmlPydrofoil.Library.Interaction

/-! The C interface between the core and the Pydrofoil plugin, as in `pydrofoilcapi.h`.
An entry point may call back into the core's `read_mem` and `write_mem` before it returns, so
it is an interaction tree over these callbacks.
-/

namespace VcmlPydrofoil

open Interaction (Tree)

/-- A `void*` CPU handle that is not NULL. -/
abbrev Handle := Nat

/-- A call of a registered memory callback. `destination` is the word that the callback's
pointer refers to, as it stands before the call.
-/
inductive MemCallback where
  | readMem (address : BitVec 64) (size : BitVec 32) (destination : BitVec 64)
  | writeMem (address : BitVec 64) (size : BitVec 32) (value : BitVec 64)
  deriving DecidableEq

/-- A callback returns its `int` status; a read also leaves a word in `*destination`. -/
@[reducible] def MemCallback.Reply : MemCallback → Type
  | .readMem _ _ _ => BitVec 32 × BitVec 64
  | .writeMem _ _ _ => BitVec 32

/-- A plugin call with result `α`, over a Python world of type `π`. -/
abbrev ApiCall (π α : Type) := Tree MemCallback MemCallback.Reply (α × π)

/-- The entry points that the core calls. NULL is `none`. -/
inductive ApiFunction where
  | allocateCpu
  | freeCpu
  | cpuSimulate
  | cpuCycles
  | cpuPc
  | cpuSetPc
  | cpuSetRamReadWriteCallback
  deriving DecidableEq

/-- The plugin behind the C interface. The core registers its one pair of callbacks with
itself as payload, so the registration carries no further arguments.
-/
structure Plugin (π : Type) where
  pydrofoilAllocateCpu (spec : String) : π → ApiCall π (Option Handle)
  pydrofoilFreeCpu (cpu : Option Handle) : π → ApiCall π (BitVec 32)
  pydrofoilCpuSimulate (cpu : Option Handle) (steps : BitVec 64) : π → ApiCall π (BitVec 32)
  pydrofoilCpuCycles (cpu : Option Handle) : π → ApiCall π (BitVec 64)
  pydrofoilCpuPc (cpu : Option Handle) : π → ApiCall π (BitVec 64)
  pydrofoilCpuSetPc (cpu : Option Handle) (value : BitVec 64) : π → ApiCall π (BitVec 32)
  pydrofoilCpuSetRamReadWriteCallback (cpu : Option Handle) : π → ApiCall π (BitVec 32)

end VcmlPydrofoil
