import VcmlPydrofoil.Model.CApi

/-! The tasks of the Python worker and their handlers, as in `python_tasks.h` and
`python_tasks.cpp`. A handler is the tree of the worker's actions on the core, one shared
access at a time; the calls into the plugin are part of it.
-/

namespace VcmlPydrofoil

open Interaction (Tree)

/-- `enum class Funct`. -/
inductive Funct where
  | init
  | setCb
  | simulate
  | getCycles
  | setPc
  | readPc
  | freeCpu
  deriving DecidableEq

/-- `std::variant<std::monostate, size_t, const char*>`. -/
inductive TaskArg where
  | monostate
  | size (value : BitVec 64)
  | chars (value : String)
  deriving DecidableEq

/-- `std::get<size_t>`; `none` is `std::bad_variant_access`. -/
def TaskArg.getSize : TaskArg → Option (BitVec 64)
  | .size value => some value
  | _ => none

/-- `std::get<const char*>`. -/
def TaskArg.getChars : TaskArg → Option String
  | .chars value => some value
  | _ => none

/-- A task. `result` names the shared state of its promise. -/
structure PythonTask where
  pyFunct : Funct
  arg : TaskArg
  result : Nat
  deriving DecidableEq

/-- What the worker does inside a handler. `enter` and `leave` bracket a call into the plugin;
`leave` carries the Python world that the call left behind.
-/
inductive Instr (π : Type) where
  | callback (callback : MemCallback)
  | enter (function : ApiFunction)
  | leave (function : ApiFunction) (py : π)
  | storeCpu (cpu : Option Handle)
  | storeCycles (cycles : BitVec 32)
  | setValue (value : BitVec 64)
  | notifyMemtask
  | badVariantAccess

/-- Only a callback has a reply. -/
@[reducible] def Instr.Reply {π : Type} : Instr π → Type
  | .callback request => request.Reply
  | _ => Unit

/-- The rest of a handler. -/
abbrev Script (π : Type) := Tree (Instr π) Instr.Reply Unit

namespace Script

variable {π α : Type}

/-- Set `core.cpu`. -/
def storeCpu (cpu : Option Handle) (rest : Script π) : Script π :=
  .ask (.storeCpu cpu) (fun _ => rest)

/-- Set `core.n_cycles`. -/
def storeCycles (cycles : BitVec 32) (rest : Script π) : Script π :=
  .ask (.storeCycles cycles) (fun _ => rest)

/-- `task.result.set_value(value)`. -/
def setValue (value : BitVec 64) (rest : Script π) : Script π :=
  .ask (.setValue value) (fun _ => rest)

/-- `core.memtask_cv.notify_one()`. -/
def notifyMemtask (rest : Script π) : Script π :=
  .ask .notifyMemtask (fun _ => rest)

/-- Return from the handler. -/
def done : Script π := .ret ()

/-- `std::get` on another alternative throws out of the handler. -/
def badVariantAccess : Script π := .ask .badVariantAccess (fun _ => done)

/-- The plugin sees the reply of its own callback. -/
def callbackReply (request : MemCallback) (reply : (Instr.callback request : Instr π).Reply)
    : request.Reply :=
  reply

/-- Call into the plugin and go on with its result and the world it left. -/
def call (function : ApiFunction) (body : ApiCall π α) (rest : α → π → Script π)
    : Script π :=
  .ask (.enter function) fun _ =>
    (body.embed .callback callbackReply).bind fun (result, py) =>
      .ask (.leave function py) fun _ => rest result py

end Script

namespace Handlers

open Script

variable {π : Type} (api : Plugin π) (cpu : Option Handle) (py : π) (task : PythonTask)

/-- Lines 9–13. -/
def init : Script π :=
  match task.arg.getChars with
  | none => badVariantAccess
  | some coreType =>
      call .allocateCpu (api.pydrofoilAllocateCpu coreType py) fun handle _ =>
        storeCpu handle (setValue 0 done)

/-- Lines 15–18. The `int` status is widened to the promise's `uint64_t`. -/
def setCb : Script π :=
  call .cpuSetRamReadWriteCallback (api.pydrofoilCpuSetRamReadWriteCallback cpu py) fun res _ =>
    setValue (res.signExtend 64) done

/-- Lines 20–23. `n_cycles` is an `int`, and the promise receives it after the narrowing. -/
def getCycles : Script π :=
  call .cpuCycles (api.pydrofoilCpuCycles cpu py) fun cycles _ =>
    storeCycles (cycles.setWidth 32) (setValue ((cycles.setWidth 32).signExtend 64) done)

/-- Lines 25–31. -/
def simulate : Script π :=
  match task.arg.getSize with
  | none => badVariantAccess
  | some cycles =>
      call .cpuSimulate (api.pydrofoilCpuSimulate cpu cycles py) fun _ py =>
        call .cpuCycles (api.pydrofoilCpuCycles cpu py) fun cycles _ =>
          storeCycles (cycles.setWidth 32) (setValue 0 (notifyMemtask done))

/-- Lines 33–37. -/
def setPc : Script π :=
  match task.arg.getSize with
  | none => badVariantAccess
  | some pcValue =>
      call .cpuSetPc (api.pydrofoilCpuSetPc cpu pcValue py) fun res _ =>
        setValue (if res = 0 then 1 else 0) done

/-- Lines 39–42. -/
def readPc : Script π :=
  call .cpuPc (api.pydrofoilCpuPc cpu py) fun pcValue _ => setValue pcValue done

/-- Lines 44–47. -/
def freeCpu : Script π :=
  call .freeCpu (api.pydrofoilFreeCpu cpu py) fun _ _ => setValue 0 done

end Handlers

/-- `create_handlers`: the map has an entry for every `Funct`. The handlers read `core.cpu`
and the Python world when they start, which only the worker itself changes.
-/
def createHandlers {π : Type} (api : Plugin π) (cpu : Option Handle) (py : π)
    (task : PythonTask)
    : Script π :=
  match task.pyFunct with
  | .init => Handlers.init api py task
  | .setCb => Handlers.setCb api cpu py
  | .getCycles => Handlers.getCycles api cpu py
  | .simulate => Handlers.simulate api cpu py task
  | .setPc => Handlers.setPc api cpu py task
  | .readPc => Handlers.readPc api cpu py
  | .freeCpu => Handlers.freeCpu api cpu py

end VcmlPydrofoil
