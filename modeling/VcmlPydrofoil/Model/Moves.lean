import VcmlPydrofoil.Model.Core

/-! What one step of the core can do, one constructor for each action of a thread. -/

namespace VcmlPydrofoil

open Interaction (Tree)

variable {π β : Type}

/-- Where a client stands when its operation has the value of its task. -/
def Operation.next : Operation → ClientPc
  | .construct _ => .push (.readRegDbg 0 8)
  | .destruct => .joinWorker
  | _ => .idle

/-- Where a client stands when its operation posts no task. -/
def Operation.withoutTask : Operation → ClientPc
  | .destruct => .joinWorker
  | _ => .idle

/-- The lifetime when an operation has the value of its task. -/
def Operation.lifetime : Operation → Lifetime → Lifetime
  | .readRegDbg _ _, lifetime => lifetime.constructed
  | _, lifetime => lifetime

/-- A call either goes on to its push, or returns at once; a destructor without a task goes on
to its join.
-/
theorem call_cases (s : State π β) (c : ClientId) (op : Operation) (pc : s.client c = .idle)
    : (s.posts op = true
        ∧ s.call c op
          = { s with
              lifetime := s.lifetime.called op
              client := Function.update s.client c (.push op) })
      ∨ (s.posts op = false
        ∧ ∃ counts returned, s.call c op
          = { s with
              lifetime := s.lifetime.called op
              client := Function.update s.client c op.withoutTask
              log := { s.log with cycleCounts := counts, returned := returned } }) := by
  have same : { s with lifetime := s.lifetime.called op }.posts op = s.posts op := by
    cases op <;> rfl
  have still : Function.update s.client c .idle = s.client := pc ▸ Function.update_eq_self c _
  cases posts : s.posts op with
  | true =>
      refine Or.inl ⟨rfl, ?_⟩
      simp only [State.call, same, posts, ↓reduceIte]
      rfl
  | false =>
      refine Or.inr ⟨rfl, ?_⟩
      simp only [State.call, same, posts, Bool.false_eq_true, ↓reduceIte]
      cases op with
      | cycleCount =>
          refine ⟨s.log.cycleCounts ++ [(s.cachedCycles, s.log.completed.getLast?)],
            s.log.returned ++ [(c, .cycles s.cachedCycles)], ?_⟩
          simp only [Operation.withoutTask, still]
          rfl
      | _ => exact ⟨_, _, rfl⟩

/-- A call touches only its client, the lifetime and what callers are told. -/
theorem call_started (s : State π β) {c : ClientId} (op : Operation) (pc : s.client c = .idle)
    : ∃ pc',
        (s.posts op = true ∧ pc' = .push op ∨ s.posts op = false ∧ pc' = op.withoutTask)
        ∧ (s.call c op).lifetime = s.lifetime.called op
        ∧ (s.call c op).log.posted = s.log.posted
        ∧ (s.call c op).results = s.results
        ∧ (s.call c op).client = Function.update s.client c pc' := by
  rcases call_cases s c op pc with ⟨posts, same⟩ | ⟨posts, _, _, same⟩ <;> rw [same]
  · exact ⟨.push op, Or.inl ⟨posts, rfl⟩, rfl, rfl, rfl, rfl⟩
  · exact ⟨op.withoutTask, Or.inr ⟨posts, rfl⟩, rfl, rfl, rfl, rfl⟩

/-- The end of an operation, apart from what its caller is told. -/
theorem finish_eq (s : State π β) (c : ClientId) (op : Operation) (id : Nat) (value : BitVec 64)
    : ∃ counts returned, s.finish c op id value
      = { s with
          lifetime := op.lifetime s.lifetime
          client := Function.update s.client c op.next
          log := { s.log with
            received := s.log.received ++ [(c, id, value)]
            cycleCounts := counts
            returned := returned } } := by
  cases op <;> exact ⟨_, _, rfl⟩

/-- The actions of the threads with what each requires and the state it leaves. -/
inductive Move (vp : Platform π β) (s : State π β) : Label → State π β → Prop
  | call (c : ClientId) (op : Operation) (pc : s.client c = .idle)
    : Move vp s (.call c op) (s.call c op)
  | pushTask (c : ClientId) (op : Operation) (pc : s.client c = .push op)
    (free : s.taskMutex = false)
    : Move vp s (.client c) (s.pushTask c op)
  | setSimStarted (c : ClientId) (cycles : BitVec 64) (id : Nat)
    (pc : s.client c = .setSimStarted cycles id)
    : Move vp s (.client c) ({ s with simStarted := true }.goto c (.notifyTask (.simulate cycles) id))
  | notifyTask (c : ClientId) (op : Operation) (id : Nat) (pc : s.client c = .notifyTask op id)
    : Move vp s (.client c) (s.notifyTask c op id)
  | finish (c : ClientId) (op : Operation) (id : Nat) (value : BitVec 64)
    (pc : s.client c = .getResult op id) (ready : s.results id = some value)
    : Move vp s (.client c) (s.finish c op id value)
  | leaveLoop (c : ClientId) (id : Nat) (value : BitVec 64) (pc : s.client c = .testDone id)
    (ready : s.results id = some value)
    : Move vp s (.client c) (s.leaveLoop c id value)
  | stayInLoop (c : ClientId) (id : Nat) (pc : s.client c = .testDone id)
    (unset : s.results id = none)
    : Move vp s (.client c) (s.goto c (.lockMemtask id))
  | lockMemtask (c : ClientId) (id : Nat) (pc : s.client c = .lockMemtask id)
    (free : s.memtaskMutex = false)
    : Move vp s (.client c) ({ s with memtaskMutex := true }.goto c (.testMemtask id))
  | testTrue (c : ClientId) (id : Nat) (pc : s.client c = .testMemtask id)
    (ready : s.memtaskQueue ≠ [] ∨ (s.results id).isSome)
    : Move vp s (.client c) (s.goto c (.takeMemtask id))
  | testFalse (c : ClientId) (id : Nat) (pc : s.client c = .testMemtask id)
    (empty : s.memtaskQueue = []) (unset : s.results id = none)
    : Move vp s (.client c) (s.goto c (.sleepMemtask id))
  | sleepMemtask (c : ClientId) (id : Nat) (pc : s.client c = .sleepMemtask id)
    : Move vp s (.client c) (s.sleepMemtask c id)
  | takeMemtask (c : ClientId) (id : Nat) (memtask : MemAccess) (rest : List MemAccess)
    (pc : s.client c = .takeMemtask id) (queued : s.memtaskQueue = memtask :: rest)
    : Move vp s (.client c)
        { s with
          memtaskMutex := false, memtaskQueue := rest
          client := Function.update s.client c (.access id memtask) }
  | continueLoop (c : ClientId) (id : Nat) (pc : s.client c = .takeMemtask id)
    (empty : s.memtaskQueue = [])
    : Move vp s (.client c) { s.goto c (.testDone id) with memtaskMutex := false }
  | access (c : ClientId) (id : Nat) (memtask : MemAccess) (pc : s.client c = .access id memtask)
    : Move vp s (.client c) (s.access vp c id memtask)
  | answer (c : ClientId) (id : Nat) (memtask : MemAccess) (success : Bool)
    (pc : s.client c = .answer id memtask success)
    : Move vp s (.client c) (s.answer c id memtask success)
  | clearSimStarted (c : ClientId) (pc : s.client c = .clearSimStarted)
    : Move vp s (.client c) (s.clearSimStarted c)
  | joined (c : ClientId) (pc : s.client c = .joinWorker) (exited : s.worker = .exited)
    : Move vp s (.client c) { s.returns c .void with lifetime := .dead }
  | busThrows (c : ClientId) (id : Nat) (memtask : MemAccess) (pc : s.client c = .access id memtask)
    : Move vp s (.busThrows c) (s.busThrows c id memtask)
  | spuriousClient (c : ClientId) (id : Nat) (pc : s.client c = .asleep id)
    : Move vp s (.spuriousClient c) (s.wakeClient c)
  | spuriousWorker (pc : s.worker = .asleep)
    : Move vp s .spuriousWorker { s with worker := .lock }
  | lock (wake : Nat) (pc : s.worker = .lock) (free : s.taskMutex = false)
    : Move vp s (.worker wake) { s with taskMutex := true, worker := .test }
  | workerTestTrue (wake : Nat) (pc : s.worker = .test)
    (ready : s.taskQueue ≠ [] ∨ s.stopWorker = true)
    : Move vp s (.worker wake) { s with worker := .take }
  | workerTestFalse (wake : Nat) (pc : s.worker = .test) (empty : s.taskQueue = [])
    (running : s.stopWorker = false)
    : Move vp s (.worker wake) { s with worker := .sleep }
  | sleep (wake : Nat) (pc : s.worker = .sleep)
    : Move vp s (.worker wake) { s with taskMutex := false, worker := .asleep }
  | takeTask (wake : Nat) (task : PythonTask) (rest : List PythonTask) (pc : s.worker = .take)
    (queued : s.taskQueue = task :: rest)
    : Move vp s (.worker wake)
        { s with
          taskMutex := false, taskQueue := rest, worker := .dispatch task
          log := { s.log with taken := s.log.taken ++ [task] } }
  | exit (wake : Nat) (pc : s.worker = .take) (empty : s.taskQueue = [])
    (stop : s.stopWorker = true)
    : Move vp s (.worker wake) { s with taskMutex := false, worker := .exited }
  | dispatch (wake : Nat) (task : PythonTask) (pc : s.worker = .dispatch task)
    : Move vp s (.worker wake)
        { s with worker := .handler task (createHandlers vp.api s.cpu s.py task) }
  | handled (wake : Nat) (task : PythonTask) (pc : s.worker = .handler task (.ret ()))
    : Move vp s (.worker wake)
        { s with worker := .lock, log := { s.log with handled := s.log.handled ++ [task] } }
  | filterCallback (wake : Nat) (task : PythonTask) (request : MemCallback)
    (next : request.Reply → Script π)
    (pc : s.worker = .handler task (.ask (.callback request) next)) (filtered : accepted request.address = false)
    : Move vp s (.worker wake) (s.filterCallback task request next)
  | dropCallback (wake : Nat) (task : PythonTask) (request : MemCallback)
    (next : request.Reply → Script π)
    (pc : s.worker = .handler task (.ask (.callback request) next))
    (passed : accepted request.address = true) (notStarted : s.simStarted = false)
    : Move vp s (.worker wake) (s.dropCallback task request next)
  | beginCallback (wake : Nat) (task : PythonTask) (request : MemCallback)
    (next : request.Reply → Script π)
    (pc : s.worker = .handler task (.ask (.callback request) next))
    (passed : accepted request.address = true) (started : s.simStarted = true)
    : Move vp s (.worker wake) (s.beginCallback task request next)
  | enter (wake : Nat) (task : PythonTask) (function : ApiFunction) (next : Unit → Script π)
    (pc : s.worker = .handler task (.ask (.enter function) next))
    : Move vp s (.worker wake)
        { s with
          worker := .handler task (next ())
          log := { s.log with calls := s.log.calls ++ [.enter function] } }
  | leave (wake : Nat) (task : PythonTask) (function : ApiFunction) (py : π)
    (next : Unit → Script π) (pc : s.worker = .handler task (.ask (.leave function py) next))
    : Move vp s (.worker wake)
        { s with
          worker := .handler task (next ()), py := py
          log := { s.log with calls := s.log.calls ++ [.leave function] } }
  | storeCpu (wake : Nat) (task : PythonTask) (cpu : Option Handle) (next : Unit → Script π)
    (pc : s.worker = .handler task (.ask (.storeCpu cpu) next))
    : Move vp s (.worker wake) { s with worker := .handler task (next ()), cpu := cpu }
  | storeCycles (wake : Nat) (task : PythonTask) (cycles : BitVec 32) (next : Unit → Script π)
    (pc : s.worker = .handler task (.ask (.storeCycles cycles) next))
    : Move vp s (.worker wake) { s with worker := .handler task (next ()), nCycles := cycles }
  | setValue (wake : Nat) (task : PythonTask) (value : BitVec 64) (next : Unit → Script π)
    (pc : s.worker = .handler task (.ask (.setValue value) next))
    : Move vp s (.worker wake)
        { s with
          worker := .handler task (next ())
          results := Function.update s.results task.result (some value)
          log := { s.log with values := s.log.values ++ [(task.result, value)] } }
  | notifyHandler (wake : Nat) (task : PythonTask) (next : Unit → Script π)
    (pc : s.worker = .handler task (.ask .notifyMemtask next)) (after : State π β)
    (notified : s.notifyMemtask wake = some after)
    : Move vp s (.worker wake) { after with worker := .handler task (next ()) }
  | badVariantAccess (wake : Nat) (task : PythonTask) (next : Unit → Script π)
    (pc : s.worker = .handler task (.ask .badVariantAccess next))
    : Move vp s (.worker wake) { s with worker := .terminated task }
  | pushMemtask (wake : Nat) (task : PythonTask) (request : MemCallback)
    (next : request.Reply → Script π) (pc : s.worker = .post task request next)
    (free : s.memtaskMutex = false)
    : Move vp s (.worker wake) (s.pushMemtask task request next)
  | notifyMem (wake : Nat) (task : PythonTask) (request : MemCallback) (id : Nat)
    (next : request.Reply → Script π) (pc : s.worker = .notifyMem task request id next)
    (after : State π β) (notified : s.notifyMemtask wake = some after)
    : Move vp s (.worker wake) { after with worker := .getAnswer task request id next }
  | leaveCallback (wake : Nat) (task : PythonTask) (request : MemCallback) (id : Nat)
    (next : request.Reply → Script π) (success : Bool)
    (pc : s.worker = .getAnswer task request id next) (answered : s.answers id = some (.value success))
    : Move vp s (.worker wake) (s.leaveCallback task request next success)
  | brokenPromise (wake : Nat) (task : PythonTask) (request : MemCallback) (id : Nat)
    (next : request.Reply → Script π) (pc : s.worker = .getAnswer task request id next)
    (answered : s.answers id = some .broken)
    : Move vp s (.worker wake) { s with worker := .terminated task }

/-- The notification of a task wakes the worker when it sleeps, and only then. -/
theorem notifyTask_worker (s : State π β) (c : ClientId) (op : Operation) (id : Nat)
    : (s.worker = .asleep ∧ (s.notifyTask c op id).worker = .lock)
      ∨ (s.worker ≠ .asleep ∧ (s.notifyTask c op id).worker = s.worker) := by
  unfold State.notifyTask
  cases s.worker <;> simp

/-- A notification on `memtask_cv` changes nothing but who sleeps there: a client that it wakes
goes on by locking `memtask_mutex`.
-/
theorem notifyMemtask_frame {s after : State π β} {wake : Nat}
    (notified : s.notifyMemtask wake = some after)
    : ∃ cv client,
        after = { s with memtaskCv := cv, client := client }
        ∧ ∀ c,
            client c = s.client c
            ∨ ∃ id, s.client c = .asleep id ∧ client c = .lockMemtask id := by
  unfold State.notifyMemtask at notified
  split at notified
  · cases notified
    exact ⟨s.memtaskCv, s.client, rfl, fun _ => Or.inl rfl⟩
  · obtain ⟨woken, _, rfl⟩ := Option.map_eq_some_iff.mp notified
    refine ⟨_, _, rfl, fun c => ?_⟩
    by_cases same : c = woken
    · subst c
      simp only [Function.update_self]
      cases s.client woken <;> simp
    · simp [same]

/-- What does not tell a woken client from a sleeping one is unchanged by a notification. -/
theorem notifyMemtask_map {α : Type} {s after : State π β} {wake : Nat} (f : ClientPc → α)
    (blind : ∀ id, f (.lockMemtask id) = f (.asleep id))
    (notified : s.notifyMemtask wake = some after) (c : ClientId)
    : f (after.client c) = f (s.client c) := by
  obtain ⟨cv, client, rfl, woken⟩ := notifyMemtask_frame notified
  rcases woken c with same | ⟨id, asleep, lock⟩
  · exact congrArg f same
  · exact ((congrArg f lock).trans (blind id)).trans (congrArg f asleep).symm

/-- A notification leaves the worker where it is. -/
theorem notifyMemtask_worker {s after : State π β} {wake : Nat}
    (notified : s.notifyMemtask wake = some after)
    : after.worker = s.worker := by
  obtain ⟨cv, client, rfl, _⟩ := notifyMemtask_frame notified
  rfl

/-- A client's step is one of its moves, by cases on where it stands. -/
theorem clientStep_move {vp : Platform π β} {s after : State π β} {c : ClientId}
    (stepped : s.clientStep vp c = some after)
    : Move vp s (.client c) after := by
  unfold State.clientStep at stepped
  cases pc : s.client c <;> simp only [pc] at stepped
  case idle | asleep => contradiction
  case push op =>
    split at stepped
    · contradiction
    · next free =>
        cases stepped
        exact .pushTask c op pc (by simpa using free)
  case setSimStarted cycles id => cases stepped; exact .setSimStarted c cycles id pc
  case notifyTask op id => cases stepped; exact .notifyTask c op id pc
  case getResult op id =>
    obtain ⟨value, ready, rfl⟩ := Option.map_eq_some_iff.mp stepped
    exact .finish c op id value pc ready
  case testDone id =>
    cases ready : s.results id <;> simp only [ready] at stepped <;> cases stepped
    · exact .stayInLoop c id pc ready
    · exact .leaveLoop c id _ pc ready
  case lockMemtask id =>
    split at stepped
    · contradiction
    · next free =>
        cases stepped
        exact .lockMemtask c id pc (by simpa using free)
  case testMemtask id =>
    split at stepped <;> cases stepped
    · next ready => exact .testTrue c id pc (by simpa using ready)
    · next ready =>
        simp only [Bool.not_eq_true, Bool.or_eq_false_iff, Bool.not_eq_eq_eq_not, Bool.not_false,
          List.isEmpty_iff, Option.isSome_eq_false_iff, Option.isNone_iff_eq_none] at ready
        exact .testFalse c id pc ready.1 ready.2
  case sleepMemtask id => cases stepped; exact .sleepMemtask c id pc
  case takeMemtask id =>
    cases stepped
    unfold State.takeMemtask
    cases queued : s.memtaskQueue with
    | nil => exact .continueLoop c id pc queued
    | cons memtask rest => exact .takeMemtask c id memtask rest pc queued
  case access id memtask => cases stepped; exact .access c id memtask pc
  case answer id memtask success => cases stepped; exact .answer c id memtask success pc
  case clearSimStarted => cases stepped; exact .clearSimStarted c pc
  case joinWorker =>
    cases exited : s.worker <;> simp only [exited] at stepped <;> cases stepped
    exact .joined c pc exited

/-- An action of a handler is one of the worker's moves, by cases on the action. -/
theorem runInstr_move {vp : Platform π β} {s after : State π β} {wake : Nat}
    {task : PythonTask} {instr : Instr π} {next : instr.Reply → Script π}
    (pc : s.worker = .handler task (.ask instr next))
    (ran : s.runInstr wake task instr next = some after)
    : Move vp s (.worker wake) after := by
  cases instr with
  | callback request =>
      simp only [State.runInstr, State.enterCallback, Option.some.injEq] at ran
      subst ran
      split
      · next filtered => exact .filterCallback wake task request next pc (by simpa using filtered)
      · next passed =>
          split
          · next notStarted =>
              exact .dropCallback wake task request next pc (by simpa using passed)
                (by simpa using notStarted)
          · next started =>
              exact .beginCallback wake task request next pc (by simpa using passed)
                (by simpa using started)
  | enter function => cases ran; exact .enter wake task function next pc
  | leave function py => cases ran; exact .leave wake task function py next pc
  | storeCpu cpu => cases ran; exact .storeCpu wake task cpu next pc
  | storeCycles cycles => cases ran; exact .storeCycles wake task cycles next pc
  | setValue value => cases ran; exact .setValue wake task value next pc
  | notifyMemtask =>
      obtain ⟨notified, woke, rfl⟩ := Option.map_eq_some_iff.mp ran
      exact .notifyHandler wake task next pc notified woke
  | badVariantAccess => cases ran; exact .badVariantAccess wake task next pc

/-- A step of the worker is one of its moves, by cases on where it stands. -/
theorem workerStep_move {vp : Platform π β} {s after : State π β} {wake : Nat}
    (stepped : s.workerStep vp wake = some after)
    : Move vp s (.worker wake) after := by
  unfold State.workerStep at stepped
  cases pc : s.worker <;> simp only [pc] at stepped
  case asleep | exited | terminated => contradiction
  case lock =>
    split at stepped
    · contradiction
    · next free =>
        cases stepped
        exact .lock wake pc (by simpa using free)
  case test =>
    split at stepped <;> cases stepped
    · next ready => exact .workerTestTrue wake pc (by simpa using ready)
    · next ready =>
        simp only [Bool.not_eq_true, Bool.or_eq_false_iff, Bool.not_eq_eq_eq_not, Bool.not_false,
          List.isEmpty_iff] at ready
        exact .workerTestFalse wake pc ready.1 ready.2
  case sleep => cases stepped; exact .sleep wake pc
  case take =>
    unfold State.takeTask at stepped
    split at stepped
    · next task rest queued =>
        cases stepped
        exact .takeTask wake task rest pc queued
    · next queued =>
        split at stepped
        · next stop =>
            cases stepped
            exact .exit wake pc queued stop
        · contradiction
  case dispatch task => cases stepped; exact .dispatch wake task pc
  case handler task script =>
    cases script with
    | ret value => cases stepped; exact .handled wake task pc
    | ask instr next => exact runInstr_move pc stepped
  case post task request next =>
    split at stepped
    · contradiction
    · next free =>
        cases stepped
        exact .pushMemtask wake task request next pc (by simpa using free)
  case notifyMem task request id next =>
    obtain ⟨notified, woke, rfl⟩ := Option.map_eq_some_iff.mp stepped
    exact .notifyMem wake task request id next pc notified woke
  case getAnswer task request id next =>
    cases answered : s.answers id with
    | none => simp [answered] at stepped
    | some answer =>
        cases answer <;> simp only [answered] at stepped <;> cases stepped
        · exact .leaveCallback wake task request id next _ pc answered
        · exact .brokenPromise wake task request id next pc answered

/-- While the process runs, a step is that of its thread. -/
theorem step_eq {vp : Platform π β} {s : State π β} (running : s.aborted = false) (label : Label)
    : s.step vp label = s.threadStep vp label := by
  rw [State.step, running]
  rfl

/-- A worker that takes a step has not aborted the process. -/
theorem worker_step {vp : Platform π β} {s after : State π β} {wake : Nat}
    (stepped : s.workerStep vp wake = some after)
    : s.step vp (.worker wake) = some after := by
  refine (step_eq ?_ _).trans stepped
  cases pc : s.worker with
  | terminated task => simp [State.workerStep, pc] at stepped
  | _ => simp [State.aborted, pc]

/-- Only a process that has not aborted takes a step. -/
theorem step_running {vp : Platform π β} {s after : State π β} {label : Label}
    (stepped : s.step vp label = some after)
    : s.aborted = false ∧ s.threadStep vp label = some after := by
  rw [State.step] at stepped
  split at stepped
  · cases stepped
  · next running => exact ⟨Bool.eq_false_iff.mpr running, stepped⟩

/-- Every step of a thread is a move. -/
theorem threadStep_move {vp : Platform π β} {s after : State π β} {label : Label}
    (stepped : s.threadStep vp label = some after)
    : Move vp s label after := by
  cases label with
  | call c op =>
      cases pc : s.client c <;> simp only [State.threadStep, pc] at stepped <;> cases stepped
      exact .call c op pc
  | client c => exact clientStep_move stepped
  | worker wake => exact workerStep_move stepped
  | busThrows c =>
      cases pc : s.client c <;> simp only [State.threadStep, pc] at stepped <;> cases stepped
      exact .busThrows c _ _ pc
  | spuriousClient c =>
      cases pc : s.client c <;> simp only [State.threadStep, pc] at stepped <;> cases stepped
      exact .spuriousClient c _ pc
  | spuriousWorker =>
      cases pc : s.worker <;> simp only [State.threadStep, pc] at stepped <;> cases stepped
      exact .spuriousWorker pc

/-- Every labelled step is a move. -/
theorem step_move {vp : Platform π β} {s after : State π β} {label : Label}
    (stepped : s.step vp label = some after)
    : Move vp s label after :=
  threadStep_move (step_running stepped).2

/-- An idle client stays idle until it calls an operation. -/
theorem idle_stays {vp : Platform π β} {s after : State π β} {label : Label} {c : ClientId}
    (move : Move vp s label after) (idle : s.client c = .idle)
    (other : ∀ op, label ≠ .call c op)
    : after.client c = .idle := by
  have still {d : ClientId} {pc : ClientPc} (busy : s.client d ≠ .idle)
      : Function.update s.client d pc c = .idle := by
    have different : c ≠ d := by
      rintro rfl
      exact busy idle
    rw [Function.update_of_ne different, idle]
  cases move with
  | call d op pc =>
      obtain ⟨pc', _, _, _, _, client⟩ := call_started s op pc
      have different : c ≠ d := by
        rintro rfl
        exact other op rfl
      rw [client, Function.update_of_ne different, idle]
  | finish d op id value pc =>
      obtain ⟨counts, returned, same⟩ := finish_eq s d op id value
      rw [same]
      exact still (by simp [pc])
  | pushTask _ _ pc | setSimStarted _ _ _ pc | notifyTask _ _ _ pc | leaveLoop _ _ _ pc
  | stayInLoop _ _ pc | lockMemtask _ _ pc | testTrue _ _ pc | testFalse _ _ pc
  | sleepMemtask _ _ pc | takeMemtask _ _ _ _ pc | continueLoop _ _ pc | access _ _ _ pc
  | answer _ _ _ _ pc | clearSimStarted _ pc | joined _ pc | busThrows _ _ _ pc
  | spuriousClient _ _ pc =>
      exact still (by simp [pc])
  | notifyHandler _ _ _ _ _ notified | notifyMem _ _ _ _ _ _ _ notified =>
      obtain ⟨cv, client, rfl, woken⟩ := notifyMemtask_frame notified
      rcases woken c with same | ⟨id, asleep, _⟩
      · exact same.trans idle
      · simp [idle] at asleep
  | _ => exact idle

end VcmlPydrofoil
