import Mathlib.Logic.Function.Basic
import VcmlPydrofoil.Library.Transition
import VcmlPydrofoil.Model.MemoryCallbacks
import VcmlPydrofoil.Model.PythonTasks

/-! `PydrofoilCore` as a transition system: the threads that call its operations and the
Python worker, one access to shared memory at a time. Every step is sequentially consistent.
A `lock_guard` section without a wait is one step, enabled when the mutex is free; a wait is
taken apart into its test under the mutex and the release that puts the thread to sleep.
-/

namespace VcmlPydrofoil

open Interaction (Tree)

/-- A calling thread, or a coroutine of one. -/
abbrev ClientId := Nat

/-- The operations of `PydrofoilCore`. `construct` and `destruct` are the bodies of the
constructor and the destructor; the buffer of a register write is its eight bytes. The
override of `reset` has an empty body and touches nothing here.
-/
inductive Operation where
  | construct (coreType : String)
  | endOfElaboration
  | cycleCount
  | readRegDbg (regno len : BitVec 64)
  | writeRegDbg (reg : BitVec 64) (buf : BitVec 64) (len : BitVec 64)
  | simulate (cycles : BitVec 64)
  | destruct
  deriving DecidableEq

/-- The task that an operation posts, apart from its promise. -/
def Operation.pyFunct : Operation → Funct
  | .construct _ => .init
  | .endOfElaboration => .setCb
  | .cycleCount => .getCycles
  | .readRegDbg _ _ => .readPc
  | .writeRegDbg _ _ _ => .setPc
  | .simulate _ => .simulate
  | .destruct => .freeCpu

/-- The argument alternative that an operation stores. -/
def Operation.arg : Operation → TaskArg
  | .construct coreType => .chars coreType
  | .writeRegDbg _ buf _ => .size buf
  | .simulate cycles => .size cycles
  | _ => .monostate

/-- The task of an operation. -/
def Operation.task (op : Operation) (result : Nat) : PythonTask :=
  { pyFunct := op.pyFunct, arg := op.arg, result := result }

/-- What an operation returns. A refused register read or write leaves the CPU alone. -/
inductive Returned where
  | void
  | cycles (count : BitVec 64)
  | register (value : Option (BitVec 64))
  | written (accepted : Bool)
  deriving DecidableEq

/-- Where a client stands. The line numbers are those of `core.cpp`; `id` names the promise
of the client's own task.
-/
inductive ClientPc where
  | idle
  | push (op : Operation)
  | setSimStarted (cycles : BitVec 64) (id : Nat)  -- 97
  | notifyTask (op : Operation) (id : Nat)         -- 20, 39, 59, 77, 98, 147, 256
  | getResult (op : Operation) (id : Nat)          -- 21, 40, 61, 79, 148, 257
  | testDone (id : Nat)                            -- 101
  | lockMemtask (id : Nat)                         -- 106
  | testMemtask (id : Nat)                         -- 107
  | sleepMemtask (id : Nat)                        -- 107, predicate false
  | asleep (id : Nat)
  | takeMemtask (id : Nat)                         -- 110
  | access (id : Nat) (memtask : MemAccess)        -- 119, inside `data.read` or `data.write`
  | answer (id : Nat) (memtask : MemAccess) (success : Bool)    -- 127
  | clearSimStarted                                -- 129
  | joinWorker                                     -- 43
  deriving DecidableEq

/-- Where the worker stands in `python_worker_loop` and in the handler it runs. `next` is the
rest of the handler after the callback in progress, and `id` names the promise of its access.
The line numbers from 33 on are those of `write_mem`.
-/
inductive WorkerPc (π : Type) where
  | lock                                           -- 208
  | test                                           -- 209
  | sleep                                          -- 209, predicate false
  | asleep
  | take                                           -- 211
  | dispatch (task : PythonTask)                   -- 218
  | handler (task : PythonTask) (script : Script π)
  | post (task : PythonTask) (request : MemCallback)            -- 33
    (next : request.Reply → Script π)
  | notifyMem (task : PythonTask) (request : MemCallback) (id : Nat)      -- 39
    (next : request.Reply → Script π)
  | getAnswer (task : PythonTask) (request : MemCallback) (id : Nat)      -- 41
    (next : request.Reply → Script π)
  | exited
  | terminated (task : PythonTask)                 -- an exception left the thread's function

/-- The shared state of a `std::promise<bool>` once it is no longer pending. -/
inductive Answer where
  | value (success : Bool)
  | broken
  deriving DecidableEq

/-- The lifetime of the object, as its callers see it. -/
inductive Lifetime where
  | unborn
  | constructing
  | alive
  | destructing
  | dead
  deriving DecidableEq

/-- The lifetime after a call of the operation. -/
def Lifetime.called (lifetime : Lifetime) : Operation → Lifetime
  | .construct _ => .constructing
  | .destruct => .destructing
  | _ => lifetime

/-- The lifetime after a register read: the constructor ends with the read that
`define_cpureg_rw` makes for the default of the register property.
-/
def Lifetime.constructed : Lifetime → Lifetime
  | .constructing => .alive
  | lifetime => lifetime

/-- Entry into and exit from a `pydrofoil_*` function. -/
inductive ApiEvent where
  | enter (function : ApiFunction)
  | leave (function : ApiFunction)
  deriving DecidableEq

/-- A callback that returned: its status and, for a read, the word in `*destination`. -/
structure CallbackReturn where
  callback : MemCallback
  status : BitVec 32
  word : BitVec 64
  deriving DecidableEq

/-- The history of a run. No step reads it. -/
structure Log (π : Type) where
  posted : List (ClientId × PythonTask) := []
  taken : List PythonTask := []
  handled : List PythonTask := []
  values : List (Nat × BitVec 64) := []
  received : List (ClientId × Nat × BitVec 64) := []
  abandoned : List Nat := []
  calls : List ApiEvent := []
  requested : List Nat := []
  accesses : List BusAccess := []
  served : List Nat := []
  answered : List Nat := []
  callbacks : List CallbackReturn := []
  dropped : List (PythonTask × MemCallback) := []
  completed : List π := []
  cycleCounts : List (BitVec 64 × Option π) := []
  returned : List (ClientId × Returned) := []

/-- The members of `PydrofoilCore`, the threads, the promises, and the world outside. A mutex
is true while it is held across steps; `memtaskCv` lists the clients asleep on it.
`destination` is the word behind the pointer of the `read_mem` call in progress.
-/
structure State (π β : Type) where
  cpu : Option Handle := none
  simStarted : Bool := false
  nCycles : BitVec 32 := 0
  memtaskMutex : Bool := false
  memtaskCv : List ClientId := []
  memtaskQueue : List MemAccess := []
  taskQueue : List PythonTask := []
  taskMutex : Bool := false
  stopWorker : Bool := false
  client : ClientId → ClientPc := fun _ => .idle
  worker : WorkerPc π := .lock
  nextTask : Nat := 0
  results : Nat → Option (BitVec 64) := fun _ => none
  nextAccess : Nat := 0
  answers : Nat → Option Answer := fun _ => none
  destination : BitVec 64 := 0
  py : π
  bus : β
  lifetime : Lifetime := .unborn
  log : Log π := {}

/-- The plugin and the bus that a core is connected to. -/
structure Platform (π β : Type) where
  api : Plugin π
  bus : Bus β

namespace State

variable {π β : Type}

/-- A core before its constructor runs. -/
def initial (py : π) (bus : β) : State π β := { py, bus }

/-- Move one client to another control point. -/
def goto (s : State π β) (c : ClientId) (pc : ClientPc) : State π β :=
  { s with client := Function.update s.client c pc }

-----------------------------------------------------------------------------------------
-- The clients
-----------------------------------------------------------------------------------------

/-- The operation returns at once. -/
def returns (s : State π β) (c : ClientId) (value : Returned) : State π β :=
  {
    s with
    client := Function.update s.client c .idle
    log := { s.log with returned := s.log.returned ++ [(c, value)] }
  }

/-- `return n_cycles;` in `cycle_count`: an `int` converted to `u64`. -/
def cachedCycles (s : State π β) : BitVec 64 := s.nCycles.signExtend 64

/-- Whether the operation posts a task when it is called in this state. -/
def posts (s : State π β) : Operation → Bool
  | .cycleCount => !s.simStarted
  | .readRegDbg regno len => regno == 0 && len == 8
  | .writeRegDbg reg _ len => reg == 0 && len == 8
  | .destruct => s.cpu.isSome
  | _ => true

/-- The operation returns without a task. -/
def returnsAtOnce (s : State π β) (c : ClientId) : Operation → State π β
  | .cycleCount =>
      {
        s with
        log := {
          s.log with
          cycleCounts := s.log.cycleCounts ++ [(s.cachedCycles, s.log.completed.getLast?)]
          returned := s.log.returned ++ [(c, .cycles s.cachedCycles)]
        }
      }
  | .readRegDbg _ _ => s.returns c (.register none)
  | .writeRegDbg _ _ _ => s.returns c (.written false)
  | .destruct => s.goto c .joinWorker
  | _ => s.returns c .void

/-- An idle client calls an operation. -/
def call (s : State π β) (c : ClientId) (op : Operation) : State π β :=
  let s := { s with lifetime := s.lifetime.called op }
  if s.posts op then s.goto c (.push op) else s.returnsAtOnce c op

/-- Push the task under `task_mutex`; the destructor also sets `stop_worker`. -/
def pushTask (s : State π β) (c : ClientId) (op : Operation) : State π β :=
  {
    s with
    taskQueue := s.taskQueue ++ [op.task s.nextTask]
    stopWorker := s.stopWorker || op == .destruct
    nextTask := s.nextTask + 1
    client := Function.update s.client c
      (match op with
      | .simulate cycles => .setSimStarted cycles s.nextTask
      | _ => .notifyTask op s.nextTask)
    log := { s.log with posted := s.log.posted ++ [(c, op.task s.nextTask)] }
  }

/-- `task_cv.notify_one()`: only the worker waits on it. -/
def notifyTask (s : State π β) (c : ClientId) (op : Operation) (id : Nat) : State π β :=
  {
    s with
    worker := match s.worker with
      | .asleep => .lock
      | pc => pc
    client := Function.update s.client c
      (match op with
      | .simulate _ => .testDone id
      | _ => .getResult op id)
  }

/-- The client has its task's value, and the operation goes on to its return. -/
def finish (s : State π β) (c : ClientId) (op : Operation) (id : Nat) (value : BitVec 64)
    : State π β :=
  let s := { s with log := { s.log with received := s.log.received ++ [(c, id, value)] } }
  match op with
  | .construct _ => s.goto c (.push (.readRegDbg 0 8))
  | .cycleCount =>
      let s := s.returns c (.cycles value)
      {
        s with
        log := {
          s.log with
          cycleCounts := s.log.cycleCounts ++ [(value, s.log.completed.getLast?)]
        }
      }
  | .readRegDbg _ _ =>
      { s.returns c (.register (some value)) with lifetime := s.lifetime.constructed }
  | .writeRegDbg _ _ _ => s.returns c (.written (value != 0))
  | .destruct => s.goto c .joinWorker
  | _ => s.returns c .void

/-- The loop test of line 101 saw the promise set. -/
def leaveLoop (s : State π β) (c : ClientId) (id : Nat) (value : BitVec 64) : State π β :=
  {
    s with
    client := Function.update s.client c .clearSimStarted
    log := { s.log with received := s.log.received ++ [(c, id, value)] }
  }

/-- Fall asleep on `memtask_cv`, releasing `memtask_mutex`. -/
def sleepMemtask (s : State π β) (c : ClientId) (id : Nat) : State π β :=
  {
    s with
    memtaskMutex := false
    memtaskCv := s.memtaskCv ++ [c]
    client := Function.update s.client c (.asleep id)
  }

/-- Lines 110–115: take the first access, or `continue`. -/
def takeMemtask (s : State π β) (c : ClientId) (id : Nat) : State π β :=
  match s.memtaskQueue with
  | memtask :: rest =>
      {
        s with
        memtaskMutex := false
        memtaskQueue := rest
        client := Function.update s.client c (.access id memtask)
      }
  | [] => { s.goto c (.testDone id) with memtaskMutex := false }

/-- The bus access returns. -/
def access (vp : Platform π β) (s : State π β) (c : ClientId) (id : Nat) (memtask : MemAccess)
    : State π β :=
  let service := serve vp.bus s.bus memtask s.destination
  {
    s with
    destination := service.destination
    bus := service.bus
    client := Function.update s.client c (.answer id memtask service.success)
    log := {
      s.log with
      accesses := s.log.accesses ++ [service.access]
      served := s.log.served ++ [memtask.result]
    }
  }

/-- The bus access throws: the exception leaves `simulate`, and the promise dies with its
`MemAccess`.
-/
def busThrows (s : State π β) (c : ClientId) (id : Nat) (memtask : MemAccess) : State π β :=
  {
    s with
    answers := Function.update s.answers memtask.result (some .broken)
    client := Function.update s.client c .idle
    log := { s.log with abandoned := s.log.abandoned ++ [id] }
  }

/-- Line 127. -/
def answer (s : State π β) (c : ClientId) (id : Nat) (memtask : MemAccess) (success : Bool)
    : State π β :=
  {
    s with
    answers := Function.update s.answers memtask.result (some (.value success))
    client := Function.update s.client c (.testDone id)
    log := { s.log with answered := s.log.answered ++ [memtask.result] }
  }

/-- Line 129 and the return of `simulate`. -/
def clearSimStarted (s : State π β) (c : ClientId) : State π β :=
  let s := s.returns c .void
  {
    s with
    simStarted := false
    log := { s.log with completed := s.log.completed ++ [s.py] }
  }

/-- The next step of a client inside an operation; `none` while it is blocked. -/
def clientStep (vp : Platform π β) (s : State π β) (c : ClientId) : Option (State π β) :=
  match s.client c with
  | .idle => none
  | .push op => if s.taskMutex then none else some (s.pushTask c op)
  | .setSimStarted cycles id =>
      some ({ s with simStarted := true }.goto c (.notifyTask (.simulate cycles) id))
  | .notifyTask op id => some (s.notifyTask c op id)
  | .getResult op id => (s.results id).map (s.finish c op id)
  | .testDone id =>
      match s.results id with
      | some value => some (s.leaveLoop c id value)
      | none => some (s.goto c (.lockMemtask id))
  | .lockMemtask id =>
      if s.memtaskMutex then none
      else some ({ s with memtaskMutex := true }.goto c (.testMemtask id))
  | .testMemtask id =>
      if !s.memtaskQueue.isEmpty || (s.results id).isSome then
        some (s.goto c (.takeMemtask id))
      else
        some (s.goto c (.sleepMemtask id))
  | .sleepMemtask id => some (s.sleepMemtask c id)
  | .asleep _ => none
  | .takeMemtask id => some (s.takeMemtask c id)
  | .access id memtask => some (s.access vp c id memtask)
  | .answer id memtask success => some (s.answer c id memtask success)
  | .clearSimStarted => some (s.clearSimStarted c)
  | .joinWorker =>
      match s.worker with
      | .exited => some { s.returns c .void with lifetime := .dead }
      | _ => none

-----------------------------------------------------------------------------------------
-- The worker
-----------------------------------------------------------------------------------------

/-- Wake a client from `memtask_cv`: it goes on by locking `memtask_mutex` again. -/
def wakeClient (s : State π β) (c : ClientId) : State π β :=
  {
    s with
    memtaskCv := s.memtaskCv.erase c
    client := Function.update s.client c
      (match s.client c with
      | .asleep id => .lockMemtask id
      | pc => pc)
  }

/-- `memtask_cv.notify_one()` wakes the sleeper number `wake`, or nobody when none sleeps. -/
def notifyMemtask (s : State π β) (wake : Nat) : Option (State π β) :=
  if s.memtaskCv.isEmpty then some s else (s.memtaskCv[wake]?).map s.wakeClient

/-- Lines 211–216: leave the loop, or take the first task. -/
def takeTask (s : State π β) : Option (State π β) :=
  match s.taskQueue with
  | task :: rest =>
      some {
        s with
        taskMutex := false
        taskQueue := rest
        worker := .dispatch task
        log := { s.log with taken := s.log.taken ++ [task] }
      }
  | [] => if s.stopWorker then some { s with taskMutex := false, worker := .exited } else none

/-- Lines 12–15: the filter returns early. -/
def filterCallback (s : State π β) (task : PythonTask) (request : MemCallback)
    (next : request.Reply → Script π)
    : State π β :=
  {
    s with
    worker := .handler task (next request.filteredReply)
    log := {
      s.log with
      callbacks := s.log.callbacks ++ [{ callback := request, status := 0, word := 0 }]
    }
  }

/-- Lines 18–19: no simulation runs, so the callback returns without an access. -/
def dropCallback (s : State π β) (task : PythonTask) (request : MemCallback)
    (next : request.Reply → Script π)
    : State π β :=
  {
    s with
    worker := .handler task (next request.droppedReply)
    log := {
      s.log with
      callbacks := s.log.callbacks
        ++ [{ callback := request, status := 0, word := request.destination }]
      dropped := s.log.dropped ++ [(task, request)]
    }
  }

/-- The callback goes on to post an access; `*destination` is in reach of the core. -/
def beginCallback (s : State π β) (task : PythonTask) (request : MemCallback)
    (next : request.Reply → Script π)
    : State π β :=
  { s with destination := request.destination, worker := .post task request next }

/-- The entry of a callback up to its early returns. -/
def enterCallback (s : State π β) (task : PythonTask) (request : MemCallback)
    (next : request.Reply → Script π)
    : State π β :=
  if !accepted request.address then s.filterCallback task request next
  else if !s.simStarted then s.dropCallback task request next
  else s.beginCallback task request next

/-- Lines 33–38: create the promise and push the access under `memtask_mutex`. -/
def pushMemtask (s : State π β) (task : PythonTask) (request : MemCallback)
    (next : request.Reply → Script π)
    : State π β :=
  {
    s with
    memtaskQueue := s.memtaskQueue ++ [request.toMemAccess s.nextAccess]
    nextAccess := s.nextAccess + 1
    worker := .notifyMem task request s.nextAccess next
    log := { s.log with requested := s.log.requested ++ [s.nextAccess] }
  }

/-- Line 41: the answer of the access becomes the status of the callback. -/
def leaveCallback (s : State π β) (task : PythonTask) (request : MemCallback)
    (next : request.Reply → Script π) (success : Bool)
    : State π β :=
  {
    s with
    worker := .handler task (next (request.reply (callbackStatus success) s.destination))
    log := {
      s.log with
      callbacks := s.log.callbacks
        ++ [{ callback := request, status := callbackStatus success, word := s.destination }]
    }
  }

/-- The next action of a handler. -/
def runInstr (s : State π β) (wake : Nat) (task : PythonTask)
    : (instr : Instr π) → (instr.Reply → Script π) → Option (State π β)
  | .callback request, next => some (s.enterCallback task request next)
  | .enter function, next =>
      some {
        s with
        worker := .handler task (next ())
        log := { s.log with calls := s.log.calls ++ [.enter function] }
      }
  | .leave function py, next =>
      some {
        s with
        worker := .handler task (next ())
        py := py
        log := { s.log with calls := s.log.calls ++ [.leave function] }
      }
  | .storeCpu cpu, next => some { s with worker := .handler task (next ()), cpu := cpu }
  | .storeCycles cycles, next => some { s with worker := .handler task (next ()), nCycles := cycles }
  | .setValue value, next =>
      some {
        s with
        worker := .handler task (next ())
        results := Function.update s.results task.result (some value)
        log := { s.log with values := s.log.values ++ [(task.result, value)] }
      }
  | .notifyMemtask, next =>
      (s.notifyMemtask wake).map (fun s => { s with worker := .handler task (next ()) })
  | .badVariantAccess, _ => some { s with worker := .terminated task }

/-- The next step of the worker; `none` while it is blocked. `wake` chooses the thread that a
`notify_one` wakes.
-/
def workerStep (vp : Platform π β) (s : State π β) (wake : Nat) : Option (State π β) :=
  match s.worker with
  | .lock => if s.taskMutex then none else some { s with taskMutex := true, worker := .test }
  | .test =>
      if !s.taskQueue.isEmpty || s.stopWorker then some { s with worker := .take }
      else some { s with worker := .sleep }
  | .sleep => some { s with taskMutex := false, worker := .asleep }
  | .asleep => none
  | .take => s.takeTask
  | .dispatch task => some { s with worker := .handler task (createHandlers vp.api s.cpu s.py task) }
  | .handler task (.ret ()) =>
      some { s with worker := .lock, log := { s.log with handled := s.log.handled ++ [task] } }
  | .handler task (.ask instr next) => s.runInstr wake task instr next
  | .post task request next =>
      if s.memtaskMutex then none else some (s.pushMemtask task request next)
  | .notifyMem task request id next =>
      (s.notifyMemtask wake).map (fun s => { s with worker := .getAnswer task request id next })
  | .getAnswer task request id next =>
      match s.answers id with
      | none => none
      | some (.value success) => some (s.leaveCallback task request next success)
      | some .broken => some { s with worker := .terminated task }
  | .exited => none
  | .terminated _ => none

/-- An exception that leaves the function of a `std::thread` calls `std::terminate`, which aborts
the whole process. In `python_worker_loop` nothing catches one.
-/
def aborted (s : State π β) : Bool :=
  match s.worker with
  | .terminated _ => true
  | _ => false

end State

-----------------------------------------------------------------------------------------
-- The system
-----------------------------------------------------------------------------------------

/-- What may happen next. A wait may also end without a notification. -/
inductive Label where
  | call (c : ClientId) (op : Operation)
  | client (c : ClientId)
  | worker (wake : Nat)
  | busThrows (c : ClientId)
  | spuriousClient (c : ClientId)
  | spuriousWorker
  deriving DecidableEq

/-- The next step of a thread while the process runs. -/
def State.threadStep {π β : Type} (vp : Platform π β) (s : State π β)
    : Label → Option (State π β)
  | .call c op =>
      match s.client c with
      | .idle => some (s.call c op)
      | _ => none
  | .client c => s.clientStep vp c
  | .worker wake => s.workerStep vp wake
  | .busThrows c =>
      match s.client c with
      | .access id memtask => some (s.busThrows c id memtask)
      | _ => none
  | .spuriousClient c =>
      match s.client c with
      | .asleep _ => some (s.wakeClient c)
      | _ => none
  | .spuriousWorker =>
      match s.worker with
      | .asleep => some { s with worker := .lock }
      | _ => none

/-- One labelled step of the core. No thread takes a step in an aborted process. -/
def State.step {π β : Type} (vp : Platform π β) (s : State π β) (label : Label)
    : Option (State π β) :=
  if s.aborted then none else s.threadStep vp label

/-- The core on a platform as a transition system. -/
def coreSystem {π β : Type} (vp : Platform π β) : Transition.System (State π β) Label :=
  { step := fun s label => s.step vp label }

end VcmlPydrofoil
