import VcmlPydrofoil.Model.Core

/-! The sequential reference of the core's operations: one thread runs the handlers, and each
callback that passes the filter runs the service code of the loop in `PydrofoilCore::simulate`
in place.
-/

namespace VcmlPydrofoil

open Interaction (Tree)

variable {π β : Type}

/-- What the handlers and the service of their accesses read and write. `values` are those set
in the promises of the tasks.
-/
structure Sequential (π β : Type) where
  cpu : Option Handle
  nCycles : BitVec 32
  py : π
  bus : β
  accesses : List BusAccess
  callbacks : List CallbackReturn
  values : List (BitVec 64)

/-- A simulation is running while the handler of its task runs. -/
def PythonTask.simulates (task : PythonTask) : Bool := task.pyFunct == .simulate

namespace Sequential

/-- A callback that returns. -/
def leaveCallback (state : Sequential π β) (request : MemCallback) (status : BitVec 32)
    (word : BitVec 64)
    : Sequential π β :=
  { state with callbacks := state.callbacks ++ [{ callback := request, status, word }] }

/-- A callback whose access is served in place, when a simulation is running. -/
def callback (vp : Platform π β) (started : Bool) (state : Sequential π β) (request : MemCallback)
    : request.Reply × Sequential π β :=
  if !accepted request.address then
    (request.filteredReply, state.leaveCallback request 0 0)
  else if !started then
    (request.droppedReply, state.leaveCallback request 0 request.destination)
  else
    let service := serve vp.bus state.bus (request.toMemAccess 0) request.destination
    let status := callbackStatus service.success
    (request.reply status service.destination,
      {
        state with
        bus := service.bus
        accesses := state.accesses ++ [service.access]
      }.leaveCallback request status service.destination)

/-- One action of a handler. The notification concerns no other thread here. -/
def answer (vp : Platform π β) (started : Bool) (state : Sequential π β)
    : (instr : Instr π) → instr.Reply × Sequential π β
  | .callback request => state.callback vp started request
  | .leave _ py => ((), { state with py })
  | .storeCpu cpu => ((), { state with cpu })
  | .storeCycles cycles => ((), { state with nCycles := cycles })
  | .setValue value => ((), { state with values := state.values ++ [value] })
  | .enter _ | .notifyMemtask | .badVariantAccess => ((), state)

/-- Run the rest of a handler. -/
def follow (vp : Platform π β) (started : Bool) (script : Script π) (state : Sequential π β)
    : Sequential π β :=
  (script.run (answer vp started) state).2

/-- Run the handler of a task. -/
def handle (vp : Platform π β) (state : Sequential π β) (task : PythonTask) : Sequential π β :=
  state.follow vp task.simulates (createHandlers vp.api state.cpu state.py task)

/-- The value of the last promise. -/
def value (state : Sequential π β) : BitVec 64 := state.values.getLast?.getD 0

@[simp] theorem follow_ret (vp : Platform π β) (started : Bool) (state : Sequential π β)
    : state.follow vp started (.ret ()) = state := rfl

@[simp] theorem follow_ask (vp : Platform π β) (started : Bool) (state : Sequential π β)
    (instr : Instr π) (next : instr.Reply → Script π)
    : state.follow vp started (.ask instr next)
      = (state.answer vp started instr).2.follow vp started (next (state.answer vp started instr).1) :=
  rfl

/-- The service of an access does not depend on its promise. -/
theorem serve_result (bus : Bus β) (state : β) (request : MemCallback) (first second : Nat)
    (word : BitVec 64)
    : serve bus state (request.toMemAccess first) word
      = serve bus state (request.toMemAccess second) word := by
  cases request <;> rfl

-----------------------------------------------------------------------------------------
-- Operations
-----------------------------------------------------------------------------------------

/-- Whether the operation posts a task, when no simulation is running. -/
def posts (state : Sequential π β) : Operation → Bool
  | .readRegDbg regno len => regno == 0 && len == 8
  | .writeRegDbg reg _ len => reg == 0 && len == 8
  | .destruct => state.cpu.isSome
  | _ => true

end Sequential

/-- The operations whose tasks an operation posts: `define_cpureg_rw` ends the constructor with
a register read.
-/
def Operation.tasks : Operation → List Operation
  | .construct coreType => [.construct coreType, .readRegDbg 0 8]
  | op => [op]

/-- What an operation returns, from the value of its last task. -/
def Operation.returned (value : BitVec 64) : Operation → Returned
  | .construct _ | .readRegDbg _ _ => .register (some value)
  | .cycleCount => .cycles value
  | .writeRegDbg _ _ _ => .written (value != 0)
  | .endOfElaboration | .simulate _ | .destruct => .void

/-- What an operation returns when it posts no task. -/
def Operation.refused : Operation → Returned
  | .readRegDbg _ _ => .register none
  | .writeRegDbg _ _ _ => .written false
  | _ => .void

namespace Sequential

/-- Handle the tasks of these operations, in order. -/
def handleAll (vp : Platform π β) (ops : List Operation) (state : Sequential π β)
    : Sequential π β :=
  ops.foldl (fun state op => state.handle vp (op.task 0)) state

/-- One operation on one thread: what it returns and the state it leaves. -/
def perform (vp : Platform π β) (state : Sequential π β) (op : Operation)
    : Returned × Sequential π β :=
  if state.posts op then
    let final := state.handleAll vp op.tasks
    (op.returned final.value, final)
  else
    (op.refused, state)

/-- `simulate(cycles)` on one thread. -/
def simulate (vp : Platform π β) (state : Sequential π β) (cycles : BitVec 64)
    : Sequential π β :=
  (state.perform vp (.simulate cycles)).2

end Sequential

/-- The part of a state that the sequential reference is about. -/
def State.sequential (s : State π β) : Sequential π β :=
  {
    cpu := s.cpu, nCycles := s.nCycles, py := s.py, bus := s.bus
    accesses := s.log.accesses, callbacks := s.log.callbacks
    values := s.log.values.map Prod.snd
  }

end VcmlPydrofoil
