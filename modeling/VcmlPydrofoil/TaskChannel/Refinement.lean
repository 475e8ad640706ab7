import VcmlPydrofoil.Library.RequestServer
import VcmlPydrofoil.Model.Moves
import VcmlPydrofoil.TaskChannel.Handlers

/-! The task queue of the core is a request server: any number of clients, any interleaving.
The worker is the server, the promises are the replies, and the memory channel only delays
the handling of a task.
-/

namespace VcmlPydrofoil

open Interaction (Tree)
open RequestServer (ClientPhase ServerPhase)

variable {π β : Type}

/-- A client holds its ticket from the push until it sees the promise set. -/
def ClientPc.phase : ClientPc → ClientPhase
  | .setSimStarted _ id => .posted id
  | .notifyTask _ id => .posted id
  | .getResult _ id => .waiting id
  | .testDone id => .waiting id
  | .lockMemtask id => .waiting id
  | .testMemtask id => .waiting id
  | .sleepMemtask id => .waiting id
  | .asleep id => .waiting id
  | .takeMemtask id => .waiting id
  | .access id _ => .waiting id
  | .answer id _ _ => .waiting id
  | .idle | .push _ | .clearSimStarted | .joinWorker => .idle

/-- The task that the worker has taken and not finished. -/
def WorkerPc.task? : WorkerPc π → Option PythonTask
  | .dispatch task => some task
  | .handler task _ => some task
  | .post task _ _ => some task
  | .notifyMem task _ _ _ => some task
  | .getAnswer task _ _ _ => some task
  | .terminated task => some task
  | _ => none

/-- The callback in progress and the promise of its access, once it is posted. -/
def WorkerPc.pending : WorkerPc π → Option (MemCallback × Nat)
  | .notifyMem _ request id _ | .getAnswer _ request id _ => some (request, id)
  | _ => none

/-- The server is busy with a task until its promise is set. -/
def WorkerPc.phase (results : Nat → Option (BitVec 64)) : WorkerPc π → ServerPhase
  | .asleep => .asleep
  | pc =>
      match pc.task? with
      | none => .awake
      | some task =>
          if (results task.result).isSome then .settled task.result else .busy task.result

/-- Only a worker that waits for a task is an idle server. -/
theorem WorkerPc.asleep_of_phase {results : Nat → Option (BitVec 64)} {pc : WorkerPc π}
    (idle : pc.phase results = .asleep)
    : pc = .asleep := by
  cases pc with
  | asleep => rfl
  | lock | test | sleep | take | exited => simp [WorkerPc.phase, WorkerPc.task?] at idle
  | _ =>
      simp only [WorkerPc.phase, WorkerPc.task?] at idle
      split at idle <;> cases idle

/-- The core's task queue as a request server. -/
def State.taskChannel (s : State π β) : RequestServer.State ClientId (BitVec 64) :=
  {
    posted := s.log.posted.map Prod.fst
    queue := s.taskQueue.map PythonTask.result
    client := fun c => (s.client c).phase
    server := s.worker.phase s.results
    reply := s.results
    taken := s.log.taken.map PythonTask.result
    settled := s.log.values.map Prod.fst
    received := s.log.received
    abandoned := s.log.abandoned
  }

-----------------------------------------------------------------------------------------
-- The worker's invariant
-----------------------------------------------------------------------------------------

/-- The worker holds `task_mutex` across these steps. -/
def WorkerPc.locksTask : WorkerPc π → Bool
  | .test | .sleep | .take => true
  | _ => false

/-- The script that the worker runs agrees with its promise and with the calls still to be
made: `calls` happened, and `expected` is the history once every taken task is handled.
-/
def WorkerPc.Coherent (results : Nat → Option (BitVec 64)) (calls expected : List ApiEvent)
    : WorkerPc π → Prop
  | .dispatch task =>
      task.WellTyped ∧ results task.result = none ∧ calls ++ task.pyFunct.events = expected
  | .handler task script =>
      (results task.result = none
        ∧ ∃ events,
            Script.Pending task.pyFunct events script ∧ calls ++ events = expected)
      ∨ ((results task.result).isSome
        ∧ (script = task.pyFunct.tail ∨ script = Script.done)
        ∧ calls = expected)
  | .post task _ next | .notifyMem task _ _ next | .getAnswer task _ _ next =>
      results task.result = none
      ∧ ∃ events,
          (∀ reply, Script.Pending task.pyFunct events (next reply))
          ∧ calls ++ events = expected
  | .terminated task => results task.result = none ∧ ∃ events, calls ++ events = expected
  | _ => calls = expected

/-- What relates the worker to the queue, the promises and the history. -/
structure WorkerInvariant (s : State π β) : Prop where
  mutex : s.taskMutex = s.worker.locksTask
  sleeping : s.worker = .sleep → s.taskQueue = []
  taking : s.worker = .take → s.taskQueue ≠ [] ∨ s.stopWorker = true
  posters : ∀ entry ∈ s.log.posted, ∃ op : Operation, entry.2 = op.task entry.2.result
  order : s.log.taken ++ s.taskQueue = s.log.posted.map Prod.snd
  tickets : s.log.posted.map (fun entry => entry.2.result) = List.range s.nextTask
  handling : s.log.handled ++ s.worker.task?.toList = s.log.taken
  values : ∀ id value, s.results id = some value → (id, value) ∈ s.log.values
  coherent
    : s.worker.Coherent s.results s.log.calls
        (s.log.taken.flatMap (fun task => task.pyFunct.events))

/-- A script that has not come to its `notify_one` still has its promise to set. -/
theorem WorkerPc.Coherent.pending {results : Nat → Option (BitVec 64)}
    {calls expected : List ApiEvent} {task : PythonTask} {instr : Instr π}
    {next : instr.Reply → Script π}
    (coherent : WorkerPc.Coherent results calls expected (.handler task (.ask instr next)))
    (other : instr ≠ .notifyMemtask)
    : results task.result = none
      ∧ ∃ events,
          Script.Pending task.pyFunct events (.ask instr next)
          ∧ calls ++ events = expected := by
  rcases coherent with pending | ⟨_, tail | done, _⟩
  · exact pending
  · exfalso
    unfold Funct.tail at tail
    split at tail <;> simp [Script.notifyMemtask, Script.done] at tail
    exact other tail.1
  · simp [Script.done] at done

/-- The `notify_one` of a handler comes after its promise and is its last action. -/
theorem WorkerPc.Coherent.notified {results : Nat → Option (BitVec 64)}
    {calls expected : List ApiEvent} {task : PythonTask} {next : Unit → Script π}
    (coherent : WorkerPc.Coherent results calls expected
      (.handler task (.ask .notifyMemtask next)))
    : (results task.result).isSome ∧ next () = Script.done ∧ calls = expected := by
  rcases coherent with ⟨_, _, pending, _⟩ | ⟨set, tail | done, same⟩
  · cases pending
  · refine ⟨set, ?_, same⟩
    unfold Funct.tail at tail
    split at tail
    · simp only [Script.notifyMemtask, Tree.ask.injEq, heq_eq_eq, true_and] at tail
      rw [tail]
    · simp [Script.done] at tail
  · simp [Script.done] at done

/-- A handler that ran to its end has set its promise and made all its calls. -/
theorem WorkerPc.Coherent.handled {results : Nat → Option (BitVec 64)}
    {calls expected : List ApiEvent} {task : PythonTask}
    (coherent : WorkerPc.Coherent results calls expected
      (.handler task (.ret ()) : WorkerPc π))
    : (results task.result).isSome ∧ calls = expected := by
  rcases coherent with ⟨_, _, pending, _⟩ | ⟨set, _, same⟩
  · cases pending
  · exact ⟨set, same⟩

/-- The calls made so far begin those of the tasks taken. -/
theorem WorkerPc.Coherent.begun {results : Nat → Option (BitVec 64)}
    {calls expected : List ApiEvent} {pc : WorkerPc π}
    (coherent : pc.Coherent results calls expected)
    : calls <+: expected := by
  cases pc with
  | dispatch task => exact ⟨_, coherent.2.2⟩
  | handler task script =>
      rcases coherent with ⟨_, events, _, made⟩ | ⟨_, _, rfl⟩
      · exact ⟨events, made⟩
      · exact List.prefix_refl _
  | post | notifyMem | getAnswer =>
      obtain ⟨_, events, _, made⟩ := coherent
      exact ⟨events, made⟩
  | terminated task =>
      obtain ⟨_, events, made⟩ := coherent
      exact ⟨events, made⟩
  | _ =>
      obtain rfl : calls = expected := coherent
      exact List.prefix_refl _

/-- A worker that waits for an access handles a task whose promise is unset. -/
theorem WorkerPc.Coherent.of_pending {results : Nat → Option (BitVec 64)}
    {calls expected : List ApiEvent} {pc : WorkerPc π} {request : MemCallback} {id : Nat}
    (coherent : pc.Coherent results calls expected) (pending : pc.pending = some (request, id))
    : ∃ task, pc.task? = some task ∧ results task.result = none := by
  cases pc <;> simp [WorkerPc.pending] at pending
  all_goals exact ⟨_, rfl, coherent.1⟩

/-- While a callback waits, the promise of its task is still to be set on every reply. -/
theorem WorkerPc.Coherent.callback {results : Nat → Option (BitVec 64)}
    {calls expected : List ApiEvent} {task : PythonTask} {request : MemCallback}
    {next : request.Reply → Script π}
    (coherent : WorkerPc.Coherent results calls expected
      (.handler task (.ask (.callback request) next)))
    : results task.result = none
      ∧ ∃ events,
          (∀ reply, Script.Pending task.pyFunct events (next reply))
          ∧ calls ++ events = expected := by
  obtain ⟨unset, events, pending, same⟩ := coherent.pending (by simp)
  cases pending with
  | callback _ below => exact ⟨unset, events, below, same⟩

-----------------------------------------------------------------------------------------
-- Every move keeps the worker's invariant
-----------------------------------------------------------------------------------------

variable {vp : Platform π β} {s after : State π β} {label : Label}

/-- Every task that was taken or waits in the queue is well typed. -/
theorem WorkerInvariant.typed (inv : WorkerInvariant s) {task : PythonTask}
    (member : task ∈ s.log.taken ++ s.taskQueue)
    : task.WellTyped := by
  rw [inv.order] at member
  obtain ⟨entry, posted, rfl⟩ := List.mem_map.mp member
  obtain ⟨op, same⟩ := inv.posters entry posted
  rw [same]
  exact op.task_wellTyped _

/-- Tickets number the posted tasks in order. -/
theorem WorkerInvariant.ticket_at (inv : WorkerInvariant s) {position : Nat}
    {entry : ClientId × PythonTask} (posted : s.log.posted[position]? = some entry)
    : entry.2.result = position := by
  have found := congrArg (fun tickets => tickets[position]?) inv.tickets
  simp only [List.getElem?_map, posted, Option.map_some] at found
  exact (List.getElem?_eq_some_iff.mp found.symm).2.symm.trans (by simp)

/-- The channel knows every posted task by its ticket and its client. -/
theorem WorkerInvariant.posted_iff (inv : WorkerInvariant s) {c : ClientId} {id : Nat}
    : s.taskChannel.posted[id]? = some c
      ↔ ∃ task, (c, task) ∈ s.log.posted ∧ task.result = id := by
  simp only [State.taskChannel, List.getElem?_map, Option.map_eq_some_iff]
  constructor
  · rintro ⟨entry, posted, rfl⟩
    exact ⟨entry.2, List.mem_of_getElem? posted, inv.ticket_at posted⟩
  · rintro ⟨task, member, rfl⟩
    obtain ⟨position, posted⟩ := List.getElem?_of_mem member
    have same : task.result = position := inv.ticket_at posted
    exact ⟨(c, task), same ▸ posted, rfl⟩

/-- A call changes neither the queue nor the worker. -/
theorem WorkerInvariant.call (inv : WorkerInvariant s) (c : ClientId) (op : Operation)
    : WorkerInvariant (s.call c op) := by
  simp only [State.call]
  split
  · exact { inv with }
  · cases op <;> exact { inv with }

/-- The pushed task is well typed and has the next ticket. -/
theorem WorkerInvariant.pushTask (inv : WorkerInvariant s) (c : ClientId) (op : Operation)
    (free : s.taskMutex = false)
    : WorkerInvariant (s.pushTask c op) := by
  have unlocked : s.worker.locksTask = false := inv.mutex.symm.trans free
  exact {
    mutex := inv.mutex
    sleeping := by
      intro pc
      have pc : s.worker = .sleep := pc
      simp [pc, WorkerPc.locksTask] at unlocked
    taking := fun _ => Or.inl (by simp [State.pushTask])
    posters := by
      intro entry member
      rcases List.mem_append.mp member with old | new
      · exact inv.posters entry old
      · obtain rfl := List.mem_singleton.mp new
        exact ⟨op, rfl⟩
    order := by simp [State.pushTask, ← inv.order]
    tickets := by simp [State.pushTask, inv.tickets, List.range_succ, Operation.task]
    handling := inv.handling
    values := inv.values
    coherent := inv.coherent
  }

/-- The client that received its value goes on without touching the queue. -/
theorem WorkerInvariant.finish (inv : WorkerInvariant s) (c : ClientId) (op : Operation)
    (id : Nat) (value : BitVec 64)
    : WorkerInvariant (s.finish c op id value) := by
  cases op <;> exact { inv with }

/-- A worker that is no longer at its test may have been woken. -/
theorem WorkerInvariant.notifyTask (inv : WorkerInvariant s) (c : ClientId) (op : Operation)
    (id : Nat)
    : WorkerInvariant (s.notifyTask c op id) := by
  obtain ⟨mutex, sleeping, taking, posters, order, tickets, handling, values, coherent⟩ := inv
  constructor <;> simp only [State.notifyTask]
  case posters => exact posters
  case order => exact order
  case tickets => exact tickets
  case values => exact values
  all_goals cases pc : s.worker <;> simp_all [WorkerPc.locksTask, WorkerPc.task?, WorkerPc.Coherent]

/-- The worker goes from one control point without a task to another. -/
theorem WorkerInvariant.setWorker (inv : WorkerInvariant s) (worker : WorkerPc π)
    {taskMutex : Bool} (idle : s.worker.task? = none) (awake : worker.task? = none)
    (mutex : taskMutex = worker.locksTask)
    (sleeping : worker = .sleep → s.taskQueue = [])
    (taking : worker = .take → s.taskQueue ≠ [] ∨ s.stopWorker = true)
    : WorkerInvariant { s with taskMutex := taskMutex, worker := worker } := by
  have coherent := inv.coherent
  have handling := inv.handling
  exact {
    inv with
    mutex := mutex
    sleeping := sleeping
    taking := taking
    handling := by simpa [idle, awake] using handling
    coherent := by
      cases pc : s.worker <;> simp [pc, WorkerPc.task?] at idle <;>
        simp only [pc, WorkerPc.Coherent] at coherent <;>
        cases worker <;> simp [WorkerPc.task?] at awake <;> exact coherent
  }

/-- A worker with a task holds no mutex of the task queue. -/
theorem WorkerPc.unlocked {pc : WorkerPc π} {task : PythonTask} (busy : pc.task? = some task)
    : pc.locksTask = false ∧ pc ≠ .sleep ∧ pc ≠ .take := by
  cases pc <;> simp_all [WorkerPc.task?, WorkerPc.locksTask]

/-- The worker goes on with the task it has taken. -/
theorem WorkerInvariant.setTask (inv : WorkerInvariant s) (worker : WorkerPc π)
    {task : PythonTask} {calls : List ApiEvent}
    (current : s.worker.task? = some task) (same : worker.task? = some task)
    (coherent
      : worker.Coherent s.results calls (s.log.taken.flatMap (fun task => task.pyFunct.events)))
    : WorkerInvariant { s with worker := worker, log := { s.log with calls := calls } } :=
  {
    inv with
    mutex := by simp only [inv.mutex, (WorkerPc.unlocked current).1, (WorkerPc.unlocked same).1]
    sleeping := fun sleeping => absurd sleeping (WorkerPc.unlocked same).2.1
    taking := fun taking => absurd taking (WorkerPc.unlocked same).2.2
    handling := by simpa only [same, current] using inv.handling
    coherent := coherent
  }

/-- A handler's next action keeps the invariant when the rest of the script is pending. -/
theorem WorkerInvariant.resume (inv : WorkerInvariant s) {task : PythonTask}
    {calls events : List ApiEvent} {script : Script π}
    (current : s.worker.task? = some task) (unset : s.results task.result = none)
    (pending : Script.Pending task.pyFunct events script)
    (made : calls ++ events = s.log.taken.flatMap (fun task => task.pyFunct.events))
    : WorkerInvariant
        { s with worker := .handler task script, log := { s.log with calls := calls } } :=
  { inv.setTask (.handler task script) current rfl (Or.inl ⟨unset, events, pending, made⟩) with }

/-- The taken task was well typed when it was posted, and its promise is unset. -/
theorem WorkerInvariant.takeTask (inv : WorkerInvariant s) {task : PythonTask}
    {rest : List PythonTask} (pc : s.worker = .take) (queued : s.taskQueue = task :: rest)
    (unset : s.results task.result = none)
    : WorkerInvariant
        { s with
          taskMutex := false, taskQueue := rest, worker := .dispatch task
          log := { s.log with taken := s.log.taken ++ [task] } } := by
  have coherent := inv.coherent
  simp only [pc, WorkerPc.Coherent] at coherent
  exact {
    inv with
    mutex := rfl
    sleeping := fun sleeping => by simp at sleeping
    taking := fun taking => by simp at taking
    order := by simpa [queued] using inv.order
    handling := by simpa [pc, WorkerPc.task?] using inv.handling
    coherent := by
      refine ⟨inv.typed (by simp [queued]), unset, ?_⟩
      simp [coherent]
  }

/-- A handled task has made its calls, and the worker is back at its loop. -/
theorem WorkerInvariant.handled (inv : WorkerInvariant s) {task : PythonTask}
    (pc : s.worker = .handler task (.ret ()))
    : WorkerInvariant
        { s with worker := .lock, log := { s.log with handled := s.log.handled ++ [task] } } := by
  have coherent := inv.coherent
  have handling := inv.handling
  have mutex := inv.mutex
  rw [pc] at coherent mutex handling
  exact {
    inv with
    mutex := mutex
    sleeping := fun sleeping => by simp at sleeping
    taking := fun taking => by simp at taking
    handling := by simpa [WorkerPc.task?] using handling
    coherent := coherent.handled.2
  }

/-- Setting the promise leaves the rest of the handler's script. -/
theorem WorkerInvariant.setValue (inv : WorkerInvariant s) {task : PythonTask}
    {value : BitVec 64} {next : Unit → Script π}
    (pc : s.worker = .handler task (.ask (.setValue value) next))
    : WorkerInvariant
        { s with
          worker := .handler task (next ())
          results := Function.update s.results task.result (some value)
          log := { s.log with values := s.log.values ++ [(task.result, value)] } } := by
  have coherent := inv.coherent
  have mutex := inv.mutex
  have handling := inv.handling
  rw [pc] at coherent mutex handling
  obtain ⟨_, events, pending, made⟩ := coherent.pending (by simp)
  cases pending with
  | setValue _ below =>
      exact {
        inv with
        mutex := mutex
        sleeping := fun sleeping => by simp at sleeping
        taking := fun taking => by simp at taking
        handling := handling
        values := by
          intro id found set
          by_cases same : id = task.result
          · simp only [same, Function.update_self, Option.some.injEq] at set
            simp [same, set]
          · simp only [ne_eq, same, not_false_eq_true, Function.update_of_ne] at set
            exact List.mem_append_left _ (inv.values id found set)
        coherent := Or.inr ⟨by simp, Or.inl below, by simpa using made⟩
      }

/-- Every move keeps the worker's invariant, by cases on the move. -/
theorem WorkerInvariant.move (inv : WorkerInvariant s)
    (channel : RequestServer.Invariant s.taskChannel) (move : Move vp s label after)
    : WorkerInvariant after := by
  have coherent := inv.coherent
  cases move with
  | call c op => exact inv.call c op
  | pushTask c op _ free => exact inv.pushTask c op free
  | notifyTask c op id => exact inv.notifyTask c op id
  | finish c op id value => exact inv.finish c op id value
  | setSimStarted | leaveLoop | stayInLoop | lockMemtask | testTrue | testFalse | sleepMemtask
  | takeMemtask | continueLoop | access | answer | clearSimStarted | joined | busThrows
  | spuriousClient => exact { inv with }
  | spuriousWorker pc =>
      exact { inv.setWorker .lock (by rw [pc]; rfl) rfl
        (by rw [inv.mutex, pc]; rfl) (by simp) (by simp) with }
  | lock _ pc => exact inv.setWorker _ (by rw [pc]; rfl) rfl rfl (by simp) (by simp)
  | workerTestTrue _ pc ready =>
      exact { inv.setWorker .take (by rw [pc]; rfl) rfl
        (by rw [inv.mutex, pc]; rfl) (by simp) (fun _ => ready) with }
  | workerTestFalse _ pc empty =>
      exact { inv.setWorker .sleep (by rw [pc]; rfl) rfl
        (by rw [inv.mutex, pc]; rfl) (fun _ => empty) (by simp) with }
  | sleep _ pc => exact inv.setWorker _ (by rw [pc]; rfl) rfl rfl (by simp) (by simp)
  | takeTask _ task rest pc queued =>
      exact inv.takeTask pc queued (channel.queued_unreplied (by simp [State.taskChannel, queued]))
  | exit _ pc => exact inv.setWorker _ (by rw [pc]; rfl) rfl rfl (by simp) (by simp)
  | dispatch _ task pc =>
      rw [pc] at coherent
      obtain ⟨typed, unset, made⟩ := coherent
      exact { inv.resume (by rw [pc]; rfl) unset
        (createHandlers_pending vp.api s.cpu s.py typed) made with }
  | handled _ task pc => exact inv.handled pc
  | filterCallback _ task request next pc =>
      rw [pc] at coherent
      obtain ⟨unset, events, below, made⟩ := coherent.callback
      exact { inv.resume (by rw [pc]; rfl) unset (below request.filteredReply) made with }
  | dropCallback _ task request next pc =>
      rw [pc] at coherent
      obtain ⟨unset, events, below, made⟩ := coherent.callback
      exact { inv.resume (by rw [pc]; rfl) unset (below request.droppedReply) made with }
  | beginCallback _ task request next pc =>
      rw [pc] at coherent
      exact { inv.setTask (.post task request next) (by rw [pc]; rfl) rfl
        coherent.callback with }
  | enter _ task function next pc =>
      rw [pc] at coherent
      obtain ⟨unset, events, pending, made⟩ := coherent.pending (by simp)
      cases pending with
      | enter _ below =>
          exact { inv.resume (by rw [pc]; rfl) unset below (by simpa using made) with }
  | leave _ task function py next pc =>
      rw [pc] at coherent
      obtain ⟨unset, events, pending, made⟩ := coherent.pending (by simp)
      cases pending with
      | leave _ _ below =>
          exact { inv.resume (by rw [pc]; rfl) unset below (by simpa using made) with }
  | storeCpu _ task cpu next pc =>
      rw [pc] at coherent
      obtain ⟨unset, events, pending, made⟩ := coherent.pending (by simp)
      cases pending with
      | storeCpu _ _ below => exact { inv.resume (by rw [pc]; rfl) unset below made with }
  | storeCycles _ task cycles next pc =>
      rw [pc] at coherent
      obtain ⟨unset, events, pending, made⟩ := coherent.pending (by simp)
      cases pending with
      | storeCycles _ _ below => exact { inv.resume (by rw [pc]; rfl) unset below made with }
  | setValue _ task value next pc => exact { inv.setValue pc with }
  | notifyHandler _ task next pc after notified =>
      rw [pc] at coherent
      obtain ⟨set, done, made⟩ := coherent.notified
      obtain ⟨cv, client, rfl, _⟩ := notifyMemtask_frame notified
      exact { inv.setTask (.handler task (next ())) (by rw [pc]; rfl) rfl
        (Or.inr ⟨set, Or.inr done, made⟩) with }
  | badVariantAccess _ task next pc =>
      rw [pc] at coherent
      obtain ⟨_, _, pending, _⟩ := coherent.pending (by simp)
      cases pending
  | pushMemtask _ task request next pc =>
      rw [pc] at coherent
      exact { inv.setTask (.notifyMem task request s.nextAccess next) (by rw [pc]; rfl)
        rfl coherent with }
  | notifyMem _ task request id next pc after notified =>
      rw [pc] at coherent
      obtain ⟨cv, client, rfl, _⟩ := notifyMemtask_frame notified
      exact { inv.setTask (.getAnswer task request id next) (by rw [pc]; rfl) rfl
        coherent with }
  | leaveCallback _ task request id next success pc =>
      rw [pc] at coherent
      obtain ⟨unset, events, below, made⟩ := coherent
      exact { inv.resume (by rw [pc]; rfl) unset
        (below (request.reply (callbackStatus success) s.destination)) made with }
  | brokenPromise _ task request id next pc =>
      rw [pc] at coherent
      obtain ⟨unset, events, _, made⟩ := coherent
      exact { inv.setTask (.terminated task) (by rw [pc]; rfl) rfl
        ⟨unset, events, made⟩ with }

end VcmlPydrofoil
