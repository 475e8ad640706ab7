import VcmlPydrofoil.MemoryChannel.Services
import VcmlPydrofoil.MemoryChannel.Simulations
import VcmlPydrofoil.Model.Sequential

/-! The outcome of the worker's work: the state in which the rest of it ends when it is done on
one thread. Whatever the interleaving, no move changes it, and a posted task adds to it.
-/

namespace VcmlPydrofoil

open Interaction (Tree)

variable {π β : Type} {vp : Platform π β} {s after : State π β} {label : Label}
  {outcome : Sequential π β}

/-- The callback that the worker is in, past the early returns, with its task and the rest of
the handler.
-/
def WorkerPc.callback
    : WorkerPc π → Option (PythonTask × (request : MemCallback) × (request.Reply → Script π))
  | .post task request next | .notifyMem task request _ next | .getAnswer task request _ next =>
      some ⟨task, request, next⟩
  | _ => none

/-- The service of the access in flight succeeded or failed. -/
def State.Performed (s : State π β) (success : Bool) : Prop :=
  (∃ c, (s.client c).performed = some success)
  ∨ ∃ request id, s.worker.pending = some (request, id) ∧ s.answers id = some (.value success)

/-- The state in which the worker's current task ends when the rest of it is done on one
thread. The service of an access counts from the moment the bus access is performed.
-/
inductive TaskOutcome (vp : Platform π β) (s : State π β) (outcome : Sequential π β) : Prop
  | idle (free : s.worker.task? = none) (same : outcome = s.sequential)
  | dispatch (task : PythonTask) (pc : s.worker = .dispatch task)
    (same : outcome = s.sequential.handle vp task)
  | handler (task : PythonTask) (script : Script π) (pc : s.worker = .handler task script)
    (same : outcome = s.sequential.follow vp task.simulates script)
  | unserved (task : PythonTask) (request : MemCallback) (next : request.Reply → Script π)
    (simulates : task.simulates = true)
    (inside : s.worker.callback = some ⟨task, request, next⟩)
    (passed : accepted request.address = true) (destination : s.destination = request.destination)
    (nobody : ∀ c, (s.client c).performed = none)
    (unset : ∀ id, s.worker.pending = some (request, id) → s.answers id = none)
    (same : outcome = s.sequential.follow vp true (.ask (.callback request) next))
  | served (task : PythonTask) (request : MemCallback) (next : request.Reply → Script π)
    (simulates : task.simulates = true) (success : Bool)
    (inside : s.worker.callback = some ⟨task, request, next⟩) (performed : s.Performed success)
    (same
      : outcome
        = (s.sequential.leaveCallback request (callbackStatus success) s.destination).follow vp true
            (next (request.reply (callbackStatus success) s.destination)))

/-- A move that leaves the worker, the access in flight and the sequential state alone. -/
theorem TaskOutcome.frame (current : TaskOutcome vp s outcome)
    (worker : after.worker = s.worker) (sequential : after.sequential = s.sequential)
    (answers : (after.answers, after.destination) = (s.answers, s.destination))
    (performed : ∀ c, (after.client c).performed = (s.client c).performed)
    : TaskOutcome vp after outcome := by
  simp only [Prod.mk.injEq] at answers
  obtain ⟨answers, destination⟩ := answers
  cases current with
  | idle free same => exact .idle (worker ▸ free) (sequential ▸ same)
  | dispatch task pc same => exact .dispatch task (worker ▸ pc) (sequential ▸ same)
  | handler task script pc same => exact .handler task script (worker ▸ pc) (sequential ▸ same)
  | unserved task request next simulates inside passed word nobody unset same =>
      refine .unserved task request next simulates (worker ▸ inside) passed (destination.trans word)
        (fun c => (performed c).trans (nobody c)) ?_ (sequential ▸ same)
      rw [worker, answers]
      exact unset
  | served task request next simulates success inside done same =>
      refine .served task request next simulates success (worker ▸ inside) ?_ (by rw [sequential, destination]; exact same)
      simpa only [State.Performed, performed, worker, answers] using done

/-- A client that neither performs nor answers an access. -/
theorem TaskOutcome.client (current : TaskOutcome vp s outcome) {c : ClientId} {pc : ClientPc}
    (performed : pc.performed = (s.client c).performed)
    (client : after.client = Function.update s.client c pc)
    (worker : after.worker = s.worker) (sequential : after.sequential = s.sequential)
    (answers : (after.answers, after.destination) = (s.answers, s.destination))
    : TaskOutcome vp after outcome := by
  refine current.frame worker sequential answers (fun d => ?_)
  rw [client]
  by_cases same : d = c
  · rw [same, Function.update_self, performed]
  · rw [Function.update_of_ne same]

/-- A worker without a task moves without taking one. -/
theorem TaskOutcome.rest (current : TaskOutcome vp s outcome) (free : s.worker.task? = none)
    (still : after.worker.task? = none) (sequential : after.sequential = s.sequential)
    : TaskOutcome vp after outcome := by
  cases current with
  | idle _ same => exact .idle still (sequential ▸ same)
  | dispatch task pc | handler task _ pc => simp [pc, WorkerPc.task?] at free
  | unserved _ _ _ _ inside | served _ _ _ _ _ inside =>
      cases pc : s.worker <;> simp [pc, WorkerPc.task?, WorkerPc.callback] at free inside

/-- Inside a handler, the outcome is that of its rest. -/
theorem TaskOutcome.of_handler (current : TaskOutcome vp s outcome) {task : PythonTask}
    {script : Script π} (pc : s.worker = .handler task script)
    : outcome = s.sequential.follow vp task.simulates script := by
  cases current with
  | idle free => simp [pc, WorkerPc.task?] at free
  | dispatch _ other => simp [pc] at other
  | handler found rest other same =>
      obtain ⟨rfl, rfl⟩ : task = found ∧ script = rest := by simpa [pc] using other
      exact same
  | unserved _ _ _ _ inside | served _ _ _ _ _ inside =>
      simp [pc, WorkerPc.callback] at inside

/-- The next action of a handler does what the sequential reference does. -/
theorem TaskOutcome.step (current : TaskOutcome vp s outcome) {task : PythonTask}
    {instr : Instr π} {next : instr.Reply → Script π} {reply : instr.Reply}
    (pc : s.worker = .handler task (.ask instr next))
    (worker : after.worker = .handler task (next reply))
    (answer : s.sequential.answer vp task.simulates instr = (reply, after.sequential))
    : TaskOutcome vp after outcome := by
  refine .handler task (next reply) worker ?_
  rw [current.of_handler pc, Sequential.follow_ask, answer]

/-- Inside a callback, its access is not performed yet, or it is and the reply is known. -/
theorem TaskOutcome.of_callback (current : TaskOutcome vp s outcome) {task : PythonTask}
    {request : MemCallback} {next : request.Reply → Script π}
    (inside : s.worker.callback = some ⟨task, request, next⟩)
    : task.simulates = true
      ∧ ((accepted request.address = true
          ∧ s.destination = request.destination
          ∧ (∀ c, (s.client c).performed = none)
          ∧ (∀ id, s.worker.pending = some (request, id) → s.answers id = none)
          ∧ outcome = s.sequential.follow vp true (.ask (.callback request) next))
        ∨ ∃ success,
            s.Performed success
            ∧ outcome
              = (s.sequential.leaveCallback request (callbackStatus success)
                  s.destination).follow vp true
                  (next (request.reply (callbackStatus success) s.destination))) := by
  cases current with
  | idle free => cases pc : s.worker <;> simp [pc, WorkerPc.task?, WorkerPc.callback] at free inside
  | dispatch _ pc | handler _ _ pc => simp [pc, WorkerPc.callback] at inside
  | unserved _ _ _ simulates other passed word nobody unset same =>
      rw [inside] at other
      cases other
      exact ⟨simulates, Or.inl ⟨passed, word, nobody, unset, same⟩⟩
  | served _ _ _ simulates success other performed same =>
      rw [inside] at other
      cases other
      exact ⟨simulates, Or.inr ⟨success, performed, same⟩⟩

/-- A worker that waits for an access is in the callback that posted it. -/
theorem WorkerPc.callback_of_pending {pc : WorkerPc π} {request : MemCallback} {id : Nat}
    (pending : pc.pending = some (request, id))
    : ∃ task next, pc.callback = some ⟨task, request, next⟩ := by
  cases pc <;> simp only [WorkerPc.pending, reduceCtorEq, Option.some.injEq, Prod.mk.injEq] at pending
  all_goals
    obtain ⟨rfl, rfl⟩ := pending
    exact ⟨_, _, rfl⟩

/-- While a client serves the access in flight, its outcome is what this client performed. -/
theorem AccessPhase.performed_of_serving (phase : AccessPhase s) {c : ClientId}
    {memtask : MemAccess} (serving : (s.client c).serving = some memtask) {success : Bool}
    (performed : s.Performed success)
    : (s.client c).performed = some success := by
  obtain ⟨request, id, pending, _, _, others, unset⟩ := phase.of_serving serving
  rcases performed with ⟨d, theirs⟩ | ⟨_, found, same, set⟩
  · obtain ⟨_, also⟩ := ClientPc.serving_of_performed theirs
    by_cases same : d = c
    · exact same ▸ theirs
    · simp [others d same] at also
  · simp only [pending, Option.some.injEq, Prod.mk.injEq] at same
    simp [← same.2, unset] at set

/-- A callback that finds a simulation running goes on to be served. -/
theorem TaskOutcome.beginCallback (current : TaskOutcome vp s outcome) (access : AccessInvariant s)
    {task : PythonTask} {request : MemCallback} {next : request.Reply → Script π}
    (pc : s.worker = .handler task (.ask (.callback request) next))
    (passed : accepted request.address = true) (simulates : task.simulates = true)
    : TaskOutcome vp (s.beginCallback task request next) outcome := by
  refine .unserved task request next simulates rfl passed rfl (fun c => ?_)
    (fun id pending => nomatch pending) (simulates ▸ current.of_handler pc)
  have nobody := (access.phase.of_idle (by rw [pc]; rfl)).2 c
  show (s.client c).performed = none
  cases here : s.client c <;> first | rfl | simp [here, ClientPc.serving] at nobody

/-- A filtered callback returns as in the sequential reference. -/
theorem TaskOutcome.filterCallback (current : TaskOutcome vp s outcome)
    {task : PythonTask} {request : MemCallback} {next : request.Reply → Script π}
    (pc : s.worker = .handler task (.ask (.callback request) next))
    (filtered : accepted request.address = false)
    : TaskOutcome vp (s.filterCallback task request next) outcome := by
  refine current.step pc rfl ?_
  simp only [Sequential.answer, Sequential.callback, filtered, Bool.not_false, ↓reduceIte]
  rfl

/-- A callback that finds no simulation running returns as in the sequential reference. -/
theorem TaskOutcome.dropCallback (current : TaskOutcome vp s outcome)
    {task : PythonTask} {request : MemCallback} {next : request.Reply → Script π}
    (pc : s.worker = .handler task (.ask (.callback request) next))
    (passed : accepted request.address = true) (other : task.simulates = false)
    : TaskOutcome vp (s.dropCallback task request next) outcome := by
  refine current.step pc rfl ?_
  simp only [Sequential.answer, Sequential.callback, passed, other, Bool.not_true, Bool.not_false,
    Bool.false_eq_true, ↓reduceIte]
  rfl

/-- Posting the access does not perform it. -/
theorem TaskOutcome.pushMemtask (current : TaskOutcome vp s outcome) (access : AccessInvariant s)
    {task : PythonTask} {request : MemCallback} {next : request.Reply → Script π}
    (pc : s.worker = .post task request next)
    : TaskOutcome vp (s.pushMemtask task request next) outcome := by
  have inside : s.worker.callback = some ⟨task, request, next⟩ := by rw [pc]; rfl
  have idle : s.worker.pending = none := by rw [pc]; rfl
  obtain ⟨simulates, ⟨passed, word, nobody, _, same⟩ | ⟨success, performed, _⟩⟩ :=
    current.of_callback inside
  · refine .unserved task request next simulates rfl passed word nobody (fun id pending => ?_) same
    obtain rfl : s.nextAccess = id := by
      simpa [State.pushMemtask, WorkerPc.pending] using pending
    exact access.fresh _ (Nat.le_refl _)
  · rcases performed with ⟨c, theirs⟩ | ⟨_, _, pending, _⟩
    · obtain ⟨_, serving⟩ := ClientPc.serving_of_performed theirs
      simp [(access.phase.of_idle idle).2 c] at serving
    · simp [idle] at pending

/-- A notification on `memtask_cv` neither performs nor answers an access. -/
theorem TaskOutcome.notifyMem (current : TaskOutcome vp s outcome) {task : PythonTask}
    {request : MemCallback} {id wake : Nat} {next : request.Reply → Script π}
    (pc : s.worker = .notifyMem task request id next)
    (notified : s.notifyMemtask wake = some after)
    : TaskOutcome vp { after with worker := .getAnswer task request id next } outcome := by
  have inside : s.worker.callback = some ⟨task, request, next⟩ := by rw [pc]; rfl
  have performed := notifyMemtask_map ClientPc.performed (fun _ => rfl) notified
  obtain ⟨cv, client, rfl, _⟩ := notifyMemtask_frame notified
  obtain ⟨simulates, ⟨passed, word, nobody, unset, same⟩ | ⟨success, done, same⟩⟩ :=
    current.of_callback inside
  · refine .unserved task request next simulates rfl passed word (fun c => (performed c).trans (nobody c))
      (fun ticket waits => unset ticket (by rw [pc]; exact waits)) same
  · refine .served task request next simulates success rfl ?_ same
    rcases done with ⟨c, theirs⟩ | set
    · exact Or.inl ⟨c, (performed c).trans theirs⟩
    · rw [pc] at set
      exact Or.inr set

/-- The bus access does what the sequential reference does in the callback. -/
theorem TaskOutcome.access (current : TaskOutcome vp s outcome) (access : AccessInvariant s)
    {c : ClientId} {id : Nat} {memtask : MemAccess} (pc : s.client c = .access id memtask)
    : TaskOutcome vp (s.access vp c id memtask) outcome := by
  have serving : (s.client c).serving = some memtask := by rw [pc]; rfl
  obtain ⟨request, found, pending, rfl, _, _, unset⟩ := access.phase.of_serving serving
  obtain ⟨task, next, inside⟩ := WorkerPc.callback_of_pending pending
  obtain ⟨simulates, ⟨passed, word, _, _, same⟩ | ⟨success, performed, _⟩⟩ :=
    current.of_callback inside
  · have service := Sequential.serve_result vp.bus s.bus request 0 found request.destination
    refine .served task request next simulates (serve vp.bus s.bus (request.toMemAccess found) s.destination).success
      inside (Or.inl ⟨c, by simp [State.access, ClientPc.performed]⟩) ?_
    rw [same, Sequential.follow_ask]
    simp only [Sequential.answer, Sequential.callback, passed, Bool.not_true, Bool.false_eq_true,
      ↓reduceIte]
    simp only [State.sequential, State.access, word, service]
  · have mine := access.phase.performed_of_serving serving performed
    simp [pc, ClientPc.performed] at mine

/-- The answer repeats what the access performed. -/
theorem TaskOutcome.answer (current : TaskOutcome vp s outcome) (access : AccessInvariant s)
    {c : ClientId} {id : Nat} {memtask : MemAccess} {success : Bool}
    (pc : s.client c = .answer id memtask success)
    : TaskOutcome vp (s.answer c id memtask success) outcome := by
  have serving : (s.client c).serving = some memtask := by rw [pc]; rfl
  obtain ⟨request, found, pending, rfl, _, _, unset⟩ := access.phase.of_serving serving
  obtain ⟨task, next, inside⟩ := WorkerPc.callback_of_pending pending
  obtain ⟨simulates, ⟨_, _, nobody, _⟩ | ⟨other, performed, same⟩⟩ :=
    current.of_callback inside
  · have mine := nobody c
    simp [pc, ClientPc.performed] at mine
  · have mine := access.phase.performed_of_serving serving performed
    obtain rfl : success = other := by simpa [pc, ClientPc.performed] using mine
    exact .served task request next simulates success inside
      (Or.inr ⟨request, found, pending, by simp [State.answer]⟩) same

/-- The callback returns what the access performed. -/
theorem TaskOutcome.leaveCallback (current : TaskOutcome vp s outcome) (access : AccessInvariant s)
    {task : PythonTask} {request : MemCallback} {id : Nat} {next : request.Reply → Script π}
    {success : Bool} (pc : s.worker = .getAnswer task request id next)
    (answered : s.answers id = some (.value success))
    : TaskOutcome vp (s.leaveCallback task request next success) outcome := by
  have inside : s.worker.callback = some ⟨task, request, next⟩ := by rw [pc]; rfl
  have pending : s.worker.pending = some (request, id) := by rw [pc]; rfl
  obtain ⟨simulates, ⟨_, _, _, unset, _⟩ | ⟨other, performed, same⟩⟩ :=
    current.of_callback inside
  · simp [unset id pending] at answered
  · have equal : other = success := by
      rcases performed with ⟨c, theirs⟩ | ⟨_, found, also, set⟩
      · obtain ⟨memtask, serving⟩ := ClientPc.serving_of_performed theirs
        have nobody := (access.phase.of_answered pending (by simp [answered])).2 c
        simp [nobody] at serving
      · simp only [pending, Option.some.injEq, Prod.mk.injEq] at also
        simpa [← also.2, answered, eq_comm] using set
    subst equal
    exact .handler task _ rfl (simulates ▸ same)

-----------------------------------------------------------------------------------------
-- Every move keeps the outcome
-----------------------------------------------------------------------------------------

/-- A callback of the worker into the windows finds `sim_started` set exactly when its task
is a simulation.
-/
def KeepsCallbacks (s : State π β) (label : Label) : Prop :=
  ∀ wake task request next,
    label = .worker wake
    → s.worker = .handler task (.ask (.callback request) next)
    → accepted request.address = true
    → s.simStarted = task.simulates

/-- A move that neither posts nor takes a task keeps the outcome of the current one, by cases on
the move.
-/
theorem TaskOutcome.move (current : TaskOutcome vp s outcome) (inv : CompletingInvariant s)
    (keeps : KeepsCallbacks s label) (move : Move vp s label after)
    (completes : ∀ c, label ≠ .busThrows c) (queue : after.taskQueue = s.taskQueue)
    : TaskOutcome vp after outcome := by
  have access := inv.core.access
  have coherent := inv.core.channel.worker.coherent
  cases move with
  | call c op pc =>
      rcases call_cases s c op pc with ⟨_, same⟩ | ⟨_, _, _, same⟩ <;> rw [same]
      · exact current.client (by rw [pc]; rfl) rfl rfl rfl rfl
      · exact current.client (by rw [pc]; cases op <;> rfl) rfl rfl rfl rfl
  | pushTask => simp [State.pushTask] at queue
  | notifyTask c op id pc =>
      have performed (d : ClientId)
          : ((s.notifyTask c op id).client d).performed = (s.client d).performed := by
        by_cases same : d = c
        · subst d
          cases op <;> simp [State.notifyTask, pc, ClientPc.performed]
        · simp [State.notifyTask, same]
      rcases notifyTask_worker s c op id with ⟨asleep, woken⟩ | ⟨_, same⟩
      · exact current.rest (by rw [asleep]; rfl) (by rw [woken]; rfl) rfl
      · exact current.frame same rfl rfl performed
  | finish c op id value pc =>
      obtain ⟨counts, returned, same⟩ := finish_eq s c op id value
      rw [same]
      exact current.client (by rw [pc]; cases op <;> rfl) rfl rfl rfl rfl
  | setSimStarted _ _ _ pc | leaveLoop _ _ _ pc | stayInLoop _ _ pc | lockMemtask _ _ pc
  | testTrue _ _ pc | testFalse _ _ pc | sleepMemtask _ _ pc | takeMemtask _ _ _ _ pc
  | continueLoop _ _ pc | clearSimStarted _ pc | joined _ pc =>
      exact current.client (by rw [pc]; rfl) rfl rfl rfl rfl
  | spuriousClient c id pc => exact current.client (by simp only [pc]; rfl) rfl rfl rfl rfl
  | access c id memtask pc => exact current.access access pc
  | answer c id memtask success pc => exact current.answer access pc
  | busThrows c => exact absurd rfl (completes c)
  | spuriousWorker pc | lock _ pc | workerTestTrue _ pc | workerTestFalse _ pc | sleep _ pc
  | exit _ pc =>
      exact current.rest (by rw [pc]; rfl) rfl rfl
  | takeTask _ task rest _ queued => simp [queued] at queue
  | dispatch _ task pc =>
      cases current with
      | dispatch found other same =>
          obtain rfl : task = found := by simpa [pc] using other
          exact .handler task _ rfl same
      | idle free => simp [pc, WorkerPc.task?] at free
      | handler _ _ other => simp [pc] at other
      | unserved _ _ _ _ inside | served _ _ _ _ _ inside => simp [pc, WorkerPc.callback] at inside
  | handled _ task pc => exact .idle rfl (current.of_handler pc)
  | filterCallback _ task request next pc filtered => exact current.filterCallback pc filtered
  | dropCallback wake task request next pc passed notStarted =>
      have same := keeps wake task request next rfl pc passed
      exact current.dropCallback pc passed (same.symm.trans notStarted)
  | beginCallback wake task request next pc passed started =>
      have same := keeps wake task request next rfl pc passed
      exact current.beginCallback access pc passed (same.symm.trans started)
  | enter _ _ _ _ pc | leave _ _ _ _ _ pc | storeCpu _ _ _ _ pc | storeCycles _ _ _ _ pc =>
      exact current.step pc rfl rfl
  | setValue _ task value next pc =>
      refine current.step pc rfl ?_
      simp [State.sequential, Sequential.answer]
  | notifyHandler _ task next pc _ notified =>
      obtain ⟨cv, client, rfl, _⟩ := notifyMemtask_frame notified
      exact current.step pc rfl rfl
  | badVariantAccess _ task next pc =>
      rw [pc] at coherent
      obtain ⟨_, _, pending, _⟩ := coherent.pending (by simp)
      cases pending
  | pushMemtask _ task request next pc => exact current.pushMemtask access pc
  | notifyMem _ task request id next pc _ notified => exact current.notifyMem pc notified
  | leaveCallback _ task request id next success pc answered =>
      exact current.leaveCallback access pc answered
  | brokenPromise _ task request id next pc answered =>
      exact absurd inv.completed (inv.core.exceptions.broken id answered)

/-- The state in which all the work given to the worker ends when it is done on one thread. -/
def Outcome (vp : Platform π β) (s : State π β) (outcome : Sequential π β) : Prop :=
  ∃ current,
    TaskOutcome vp s current ∧ outcome = s.taskQueue.foldl (Sequential.handle vp) current

/-- A task enters the queue by a push and leaves it when it is taken. -/
theorem Move.taskQueue (move : Move vp s label after)
    : (after.taskQueue = s.taskQueue ∧ after.nextTask = s.nextTask)
      ∨ (∃ c op, s.client c = .push op ∧ after = s.pushTask c op)
      ∨ ∃ task rest,
          s.worker = .take
          ∧ s.taskQueue = task :: rest
          ∧ after
            = { s with
                taskMutex := false, taskQueue := rest, worker := .dispatch task
                log := { s.log with taken := s.log.taken ++ [task] } } := by
  cases move with
  | call c op pc =>
      rcases call_cases s c op pc with ⟨_, same⟩ | ⟨_, _, _, same⟩ <;> rw [same] <;>
        exact Or.inl ⟨rfl, rfl⟩
  | pushTask c op pc => exact Or.inr (Or.inl ⟨c, op, pc, rfl⟩)
  | finish c op id value =>
      obtain ⟨counts, returned, same⟩ := finish_eq s c op id value
      rw [same]
      exact Or.inl ⟨rfl, rfl⟩
  | takeTask _ task rest pc queued => exact Or.inr (Or.inr ⟨task, rest, pc, queued, rfl⟩)
  | notifyHandler _ _ _ _ _ notified | notifyMem _ _ _ _ _ _ _ notified =>
      obtain ⟨cv, client, rfl, _⟩ := notifyMemtask_frame notified
      exact Or.inl ⟨rfl, rfl⟩
  | _ => exact Or.inl ⟨rfl, rfl⟩

/-- A posted task is handled after all the others. -/
theorem Outcome.pushTask (ends : Outcome vp s outcome) {c : ClientId} {op : Operation}
    (pc : s.client c = .push op)
    : Outcome vp (s.pushTask c op) (outcome.handle vp (op.task s.nextTask)) := by
  obtain ⟨current, runs, same⟩ := ends
  refine ⟨current, runs.client ?_ rfl rfl rfl rfl, ?_⟩
  · rw [pc]
    cases op <;> rfl
  · simp [State.pushTask, same]

/-- Taking a task does not change the order of the work. -/
theorem Outcome.takeTask (ends : Outcome vp s outcome) {task : PythonTask}
    {rest : List PythonTask} (pc : s.worker = .take) (queued : s.taskQueue = task :: rest)
    : Outcome vp
        { s with
          taskMutex := false, taskQueue := rest, worker := .dispatch task
          log := { s.log with taken := s.log.taken ++ [task] } }
        outcome := by
  obtain ⟨current, runs, same⟩ := ends
  refine ⟨s.sequential.handle vp task, .dispatch task rfl rfl, ?_⟩
  have rests : current = s.sequential := by
    cases runs with
    | idle _ same => exact same
    | dispatch _ other | handler _ _ other => simp [pc] at other
    | unserved _ _ _ _ inside | served _ _ _ _ _ inside => simp [pc, WorkerPc.callback] at inside
  rw [same, queued, rests]
  rfl

/-- A move keeps the outcome of all the work, and a posted task adds to it. -/
theorem Outcome.move (ends : Outcome vp s outcome) (inv : CompletingInvariant s)
    (keeps : KeepsCallbacks s label) (move : Move vp s label after)
    (completes : ∀ c, label ≠ .busThrows c)
    : Outcome vp after outcome
      ∨ ∃ c op,
          s.client c = .push op
          ∧ after = s.pushTask c op
          ∧ Outcome vp after (outcome.handle vp (op.task s.nextTask)) := by
  rcases move.taskQueue with ⟨queue, _⟩ | ⟨c, op, pc, rfl⟩ | ⟨task, rest, pc, queued, rfl⟩
  · obtain ⟨current, runs, same⟩ := ends
    exact Or.inl ⟨current, runs.move inv keeps move completes queue, queue ▸ same⟩
  · exact Or.inr ⟨c, op, pc, rfl, ends.pushTask pc⟩
  · exact Or.inl (ends.takeTask pc queued)

/-- When every awaited reply is there, all the work is done. -/
theorem CompletingInvariant.outcome_iff (inv : CompletingInvariant s) (replied : Replied s)
    : Outcome vp s outcome ↔ outcome = s.sequential := by
  obtain ⟨empty, rests⟩ := inv.resting replied
  have tail {task : PythonTask} {script : Script π}
      (ends : script = task.pyFunct.tail ∨ script = Script.done)
      : s.sequential.follow vp task.simulates script = s.sequential := by
    rcases ends with rfl | rfl
    · unfold Funct.tail
      split <;> rfl
    · rfl
  constructor
  · rintro ⟨current, runs, same⟩
    rw [same, empty, List.foldl_nil]
    rcases rests with free | ⟨task, script, pc, ends⟩
    · cases runs with
      | idle _ same => exact same
      | dispatch _ pc | handler _ _ pc => simp [pc, WorkerPc.task?] at free
      | unserved _ _ _ _ inside | served _ _ _ _ _ inside =>
          cases pc : s.worker <;> simp [pc, WorkerPc.task?, WorkerPc.callback] at free inside
    · rw [runs.of_handler pc, tail ends]
  · rintro rfl
    refine ⟨s.sequential, ?_, by rw [empty, List.foldl_nil]⟩
    rcases rests with free | ⟨task, script, pc, ends⟩
    · exact .idle free rfl
    · exact .handler task script pc (tail ends).symm

end VcmlPydrofoil
