import Mathlib.Data.List.Infix
import VcmlPydrofoil.Library.Program
import VcmlPydrofoil.Model.CApi

/-! The Python side of the plugin, as in `gluecode.py`: the objects of class `C`, the closures
that turn accesses of a CPU into calls of the registered C functions, and the entry points with
CFFI's conversion of their results. The `_pydrofoil` extension is a parameter.
-/

namespace VcmlPydrofoil

open Interaction (Tree Program)

/-- A pointer that C hands to Python: a function or the payload. -/
abbrev Pointer := Nat

/-- A call of a registered C function. `destination` is the word that the pointer argument of
a read refers to.
-/
inductive CCallback where
  | read (function : Pointer) (cpu : Option Handle) (address : BitVec 64) (size : BitVec 32)
    (destination : BitVec 64) (payload : Pointer)
  | write (function : Pointer) (cpu : Option Handle) (address : BitVec 64) (size : BitVec 32)
    (value : BitVec 64) (payload : Pointer)
  deriving DecidableEq

/-- The `int` status, and for a read the word that the function leaves in the buffer. -/
@[reducible] def CCallback.Reply : CCallback → Type
  | .read .. => BitVec 32 × BitVec 64
  | .write .. => BitVec 32

/-- A call that a CPU makes to its `mem_read8_intercept` or `mem_write8_intercept`. -/
inductive PyAccess where
  | read (addr : Nat)
  | write (addr : Nat) (value : BitVec 64)
  deriving DecidableEq

/-- The CPU sees the value, or that the closure raised an exception. -/
@[reducible] def PyAccess.Reply : PyAccess → Type
  | .read _ => Option (BitVec 64)
  | .write _ _ => Bool

/-- The `_pydrofoil` extension: CPUs with state `χ`, built from `RISCV64` or `RISCV32`. Every
operation may raise an exception: `none` or `false`.
-/
structure Pydrofoil (χ : Type) where
  create (rv64 : Bool) (arg : Option String) (callbacks : Bool)
    : Tree PyAccess PyAccess.Reply (Option χ)
  callbacks : Bool
  step : χ → Tree PyAccess PyAccess.Reply (Bool × χ)
  readRegister (name : String) : χ → Option (BitVec 64)
  writeRegister (name : String) (value : BitVec 64) : χ → Bool × χ
  setVerbosity (verbose : Bool) : χ → Bool × χ

-----------------------------------------------------------------------------------------
-- Class C
-----------------------------------------------------------------------------------------

/-- A CPU object with the payload of the closures it was built with. `generation` numbers the
CPU objects of one `C`.
-/
structure Cpu (χ : Type) where
  state : χ
  payload : Option Pointer
  generation : Nat

/-- An object of class `C`. An attribute that is not set yet is `none`; the closures in
`callbacks` keep only their payload, everything else they look up when they run.
-/
structure C (χ : Type) where
  rv64 : Bool
  arg : Option String
  callbacks : Option Pointer := none
  read : Option Pointer := none
  write : Option Pointer := none
  mem : BitVec 64 := 0
  handle : Option Handle := none
  cpu : Option (Cpu χ) := none
  steps : Nat := 0

/-- Python code over a state, which calls the registered C functions. -/
abbrev Py (σ α : Type) := Program CCallback CCallback.Reply σ α

namespace C

variable {χ α : Type} (ext : Pydrofoil χ)

/-- Lines 21–26. An address that does not fit `uint64_t` is refused by CFFI. -/
def pyread (payload : Option Pointer) (addr : Nat) : Py (C χ) (BitVec 64) := do
  let self ← Program.get
  match self.read, payload with
  | some read, some payload =>
      if addr <<< 3 < 2 ^ 64 then
        let reply : BitVec 32 × BitVec 64 ←
          Program.ask (CCallback.read read self.handle (BitVec.ofNat 64 (addr <<< 3)) 8 self.mem payload)
        Program.modify (fun self => { self with mem := reply.2 })
        if reply.1 = 0 then pure reply.2 else Program.raise
      else
        Program.raise
  | _, _ => Program.raise

/-- Lines 27–31. -/
def pywrite (payload : Option Pointer) (addr : Nat) (value : BitVec 64) : Py (C χ) Unit := do
  let self ← Program.get
  match self.write, payload with
  | some write, some payload =>
      if addr <<< 3 < 2 ^ 64 then
        let res : BitVec 32 ←
          Program.ask (CCallback.write write self.handle (BitVec.ofNat 64 (addr <<< 3)) 8 value payload)
        if res = 0 then pure () else Program.raise
      else
        Program.raise
  | _, _ => Program.raise

/-- Run the extension with the closures of one registration. -/
def intercept (payload : Option Pointer) : Tree PyAccess PyAccess.Reply α → Py (C χ) α
  | .ret value => pure value
  | .ask (.read addr) next => do
      let word ← Program.attempt (pyread payload addr)
      intercept payload (next word)
  | .ask (.write addr value) next => do
      let written ← Program.attempt (pywrite payload addr value)
      intercept payload (next written.isSome)

/-- Lines 38–47. -/
def reset : Py (C χ) Unit := do
  let self ← Program.get
  let cpu ← intercept self.callbacks (ext.create self.rv64 self.arg self.callbacks.isSome)
  match cpu with
  | some state =>
      Program.modify (fun self =>
        {
          self with
          steps := 0
          cpu := some {
            state
            payload := self.callbacks
            generation := (self.cpu.map (fun old => old.generation + 1)).getD 0
          }
        })
  | none => Program.raise

/-- Lines 16–32. -/
def setCallbacks (read write payload : Pointer) : Py (C χ) Unit := do
  Program.modify (fun self => { self with read := some read, write := some write, mem := 0 })
  if ext.callbacks then
    Program.modify (fun self => { self with callbacks := some payload })
  else
    Program.raise

/-- Lines 34–36. -/
def step : Py (C χ) Unit := do
  Program.modify (fun self => { self with steps := self.steps + 1 })
  let self ← Program.get
  match self.cpu with
  | some cpu =>
      let (completed, state) ← intercept cpu.payload (ext.step cpu.state)
      Program.modify (fun self => { self with cpu := some { cpu with state } })
      if completed then pure () else Program.raise
  | none => Program.raise

/-- Call a method of the CPU object that changes its state. -/
def onCpu (method : χ → Bool × χ) : Py (C χ) Unit := do
  let self ← Program.get
  match self.cpu with
  | some cpu =>
      let (completed, state) := method cpu.state
      Program.modify (fun self => { self with cpu := some { cpu with state } })
      if completed then pure () else Program.raise
  | none => Program.raise

/-- `cpu.read_register(name)`. -/
def readRegister (name : String) : Py (C χ) (BitVec 64) := do
  let self ← Program.get
  match self.cpu.bind (fun cpu => ext.readRegister name cpu.state) with
  | some value => pure value
  | none => Program.raise

end C

-----------------------------------------------------------------------------------------
-- The entry points
-----------------------------------------------------------------------------------------

/-- `all_cpu_handles` with the objects behind them. -/
structure World (χ : Type) where
  objects : List (Handle × C χ) := []
  nextHandle : Handle := 1

/-- The object behind a live handle. -/
def World.object? {χ : Type} (world : World χ) (i : Option Handle) : Option (C χ) :=
  i.bind (fun handle => world.objects.lookup handle)

/-- The object behind a handle has changed. -/
def World.update {χ : Type} (world : World χ) (i : Option Handle) (object : C χ) : World χ :=
  {
    world with
    objects := world.objects.map (fun entry =>
      if some entry.1 = i then (entry.1, object) else entry)
  }

/-- CFFI converts the result of an entry point; a raised exception, or a result that does not
fit, becomes the default, which is zero.
-/
def defExtern {σ α γ : Type} (default : γ) (convert : α → Option γ) (body : Py σ α) (state : σ)
    : Tree CCallback CCallback.Reply (γ × σ) :=
  (body state).map (fun (result, next) => ((result.bind convert).getD default, next))

/-- A Python integer as a C `int`. -/
def toInt (value : Int) : Option (BitVec 32) :=
  if -2 ^ 31 ≤ value ∧ value < 2 ^ 31 then some (BitVec.ofInt 32 value) else none

/-- A natural number as a C `uint64_t`. -/
def toUInt64 (value : Nat) : Option (BitVec 64) :=
  if value < 2 ^ 64 then some (BitVec.ofNat 64 value) else none

namespace Gluecode

variable {χ α : Type} (ext : Pydrofoil χ)

/-- `cpu = ffi.from_handle(i)`, then a body that works on `cpu`. -/
def fromHandle (i : Option Handle) (body : Py (C χ) α) : Py (World χ) α := fun world =>
  match world.object? i with
  | some object => (body object).map (fun (result, object) => (result, world.update i object))
  | none => .ret (none, world)

/-- Lines 49–64. -/
def allocateCpu (spec fn : Option String) : Py (World χ) (Option Handle) := fun world =>
  let rv64 := match spec with
    | some spec => decide (['6', '4'] <:+: spec.toList)
    | none => true
  (C.reset ext { rv64, arg := fn }).map fun
    | (some _, object) =>
        (some (some world.nextHandle),
          {
            objects := world.objects
              ++ [(world.nextHandle, { object with handle := some world.nextHandle })]
            nextHandle := world.nextHandle + 1
          })
    | (none, _) => (none, world)

/-- Lines 66–72. A handle that is not in the list is reported by the status. -/
def freeCpu (i : Option Handle) : Py (World χ) Int := do
  let world ← Program.get
  if (world.object? i).isSome then
    Program.modify (fun world =>
      { world with objects := world.objects.filter (fun entry => some entry.1 ≠ i) })
    pure 0
  else
    pure (-1)

/-- Lines 74–79. -/
def cpuSetRamReadWriteCallback (i : Option Handle) (read write payload : Pointer)
    : Py (World χ) Int :=
  fromHandle i do
    C.setCallbacks ext read write payload
    C.reset ext
    pure 0

/-- Lines 81–86. -/
def cpuSimulate (i : Option Handle) (steps : BitVec 64) : Py (World χ) Int :=
  fromHandle i do
    Program.times (C.step ext) steps.toNat
    pure steps.toNat

/-- Lines 88–91. -/
def cpuCycles (i : Option Handle) : Py (World χ) Nat :=
  fromHandle i do
    let cpu ← Program.get
    pure cpu.steps

/-- Lines 93–96. -/
def cpuPc (i : Option Handle) : Py (World χ) (BitVec 64) :=
  fromHandle i (C.readRegister ext "pc")

/-- Lines 98–102. -/
def cpuReset (i : Option Handle) : Py (World χ) Int :=
  fromHandle i do
    C.reset ext
    pure 0

/-- Lines 104–108. -/
def cpuSetVerbosity (i : Option Handle) (verbose : BitVec 32) : Py (World χ) Int :=
  fromHandle i do
    C.onCpu (ext.setVerbosity (verbose != 0))
    pure 0

/-- Lines 110–114. -/
def cpuSetPc (i : Option Handle) (value : BitVec 64) : Py (World χ) Int :=
  fromHandle i do
    C.onCpu (ext.writeRegister "pc" value)
    pure 0

end Gluecode

/-- The core registers `read_mem` and `write_mem` with itself as payload. -/
def readMemPointer : Pointer := 1
def writeMemPointer : Pointer := 2
def corePointer : Pointer := 3

/-- A call of the registered functions is a call of the core's callbacks. -/
def CCallback.toMemCallback : CCallback → MemCallback
  | .read _ _ address size destination _ => .readMem address size destination
  | .write _ _ address size value _ => .writeMem address size value

/-- The reply of the core's callback is that of the registered function. -/
def CCallback.reply : (callback : CCallback) → callback.toMemCallback.Reply → callback.Reply
  | .read .., reply => reply
  | .write .., reply => reply

/-- An entry point as the core calls it. -/
def toApiCall {σ α : Type} (call : Tree CCallback CCallback.Reply (α × σ)) : ApiCall σ α :=
  call.embed CCallback.toMemCallback CCallback.reply

/-- The plugin that `gluecode.py` implements on top of the extension. The core names no file. -/
def gluecode {χ : Type} (ext : Pydrofoil χ) : Plugin (World χ) where
  pydrofoilAllocateCpu spec world :=
    toApiCall (defExtern none some (Gluecode.allocateCpu ext (some spec) none) world)
  pydrofoilFreeCpu cpu world := toApiCall (defExtern 0 toInt (Gluecode.freeCpu cpu) world)
  pydrofoilCpuSimulate cpu steps world :=
    toApiCall (defExtern 0 toInt (Gluecode.cpuSimulate ext cpu steps) world)
  pydrofoilCpuCycles cpu world := toApiCall (defExtern 0 toUInt64 (Gluecode.cpuCycles cpu) world)
  pydrofoilCpuPc cpu world := toApiCall (defExtern 0 some (Gluecode.cpuPc ext cpu) world)
  pydrofoilCpuSetPc cpu value world :=
    toApiCall (defExtern 0 toInt (Gluecode.cpuSetPc ext cpu value) world)
  pydrofoilCpuSetRamReadWriteCallback cpu world :=
    toApiCall (defExtern 0 toInt
      (Gluecode.cpuSetRamReadWriteCallback ext cpu readMemPointer writeMemPointer corePointer) world)

end VcmlPydrofoil
