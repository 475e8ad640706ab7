import VcmlPydrofoil.TaskChannel.Refinement

/-! Every move of the core is a step of the request server or leaves it alone, so the server's
invariant holds in every reachable state of the core.
-/

namespace VcmlPydrofoil

open Interaction (Tree)
open RequestServer (ClientPhase ServerPhase)

variable {π β : Type} {vp : Platform π β} {s after : State π β} {label : Label}

/-- Only the client that moved changes its phase. -/
theorem phase_update (client : ClientId → ClientPc) (c : ClientId) (pc : ClientPc)
    : (fun x => (Function.update client c pc x).phase)
      = Function.update (fun x => (client x).phase) c pc.phase :=
  Function.comp_update ClientPc.phase client c pc

/-- A move within a phase changes no phase. -/
theorem phase_update_self {client : ClientId → ClientPc} {c : ClientId} {pc : ClientPc}
    (same : pc.phase = (client c).phase)
    : (fun x => (Function.update client c pc x).phase) = fun x => (client x).phase := by
  rw [phase_update, same]
  exact Function.update_eq_self c _

/-- A client that a notification wakes stays in its phase. -/
theorem phase_woken {before after : ClientPc}
    (woken : after = before ∨ ∃ id, before = .asleep id ∧ after = .lockMemtask id)
    : after.phase = before.phase := by
  rcases woken with rfl | ⟨id, rfl, rfl⟩ <;> rfl

/-- The phase of a worker with a task says whether the promise is set. -/
theorem WorkerPc.phase_task {results : Nat → Option (BitVec 64)} {pc : WorkerPc π}
    {task : PythonTask} (busy : pc.task? = some task)
    : pc.phase results
      = if (results task.result).isSome then .settled task.result else .busy task.result := by
  cases pc <;> simp_all [WorkerPc.task?, WorkerPc.phase]

/-- A worker that goes on with its task stays in its phase. -/
theorem WorkerPc.phase_same {results : Nat → Option (BitVec 64)} {pc next : WorkerPc π}
    {task : PythonTask} (busy : pc.task? = some task) (still : next.task? = some task)
    : next.phase results = pc.phase results := by
  rw [phase_task busy, phase_task still]

/-- The channel depends only on the phases, the queue and the history of the tasks. -/
theorem taskChannel_congr
    (client : (fun x => (after.client x).phase) = fun x => (s.client x).phase)
    (server : after.worker.phase after.results = s.worker.phase s.results)
    (queue : (after.taskQueue, after.results) = (s.taskQueue, s.results))
    (history
      : (after.log.posted, after.log.taken, after.log.values, after.log.received,
          after.log.abandoned)
        = (s.log.posted, s.log.taken, s.log.values, s.log.received, s.log.abandoned))
    : after.taskChannel = s.taskChannel := by
  simp only [Prod.mk.injEq] at queue history
  rw [queue.2] at server
  simp only [State.taskChannel, client, server, queue, history]

-----------------------------------------------------------------------------------------
-- The steps of the channel
-----------------------------------------------------------------------------------------

/-- A call stays in the idle phase until its task is pushed. -/
theorem taskChannel_call {c : ClientId} (op : Operation) (pc : s.client c = .idle)
    : (s.call c op).taskChannel = s.taskChannel := by
  have idle {pc' : ClientPc} (same : pc'.phase = .idle)
      : (fun x => (Function.update s.client c pc' x).phase) = fun x => (s.client x).phase :=
    phase_update_self (by rw [pc, same]; rfl)
  simp only [State.call]
  split
  · exact taskChannel_congr (idle rfl) rfl rfl rfl
  · cases op with
    | cycleCount => exact taskChannel_congr rfl rfl rfl rfl
    | _ => exact taskChannel_congr (idle rfl) rfl rfl rfl

/-- A push posts the next ticket. -/
theorem taskChannel_pushTask (inv : WorkerInvariant s) {c : ClientId} {op : Operation}
    (pc : s.client c = .push op)
    : RequestServer.Step s.taskChannel (s.pushTask c op).taskChannel := by
  have ticket : s.taskChannel.posted.length = s.nextTask := by
    have := congrArg List.length inv.tickets
    simpa [State.taskChannel] using this
  have idle : s.taskChannel.client c = .idle := by simp [State.taskChannel, pc, ClientPc.phase]
  have step := RequestServer.Step.post s.taskChannel c idle
  rw [ticket] at step
  convert step using 1
  simp only [State.pushTask, State.taskChannel, List.map_append, List.map_cons, List.map_nil,
    phase_update, Operation.task]
  cases op <;> rfl

/-- A notification on `task_cv` wakes the worker when it sleeps. -/
theorem taskChannel_notifyTask {c : ClientId} {op : Operation} {id : Nat}
    (pc : s.client c = .notifyTask op id)
    : RequestServer.Step s.taskChannel (s.notifyTask c op id).taskChannel := by
  have posted : s.taskChannel.client c = .posted id := by
    simp [State.taskChannel, pc, ClientPc.phase]
  convert RequestServer.Step.notify s.taskChannel c id posted using 1
  simp only [State.notifyTask, State.taskChannel, phase_update]
  congr 1
  · cases op <;> rfl
  · cases s.worker <;> simp only [WorkerPc.phase, WorkerPc.task?, ServerPhase.notified] <;>
      split <;> rfl

/-- A client that gets its value receives the reply to its own ticket. -/
theorem taskChannel_receive {c : ClientId} {id : Nat} {value : BitVec 64} {pc : ClientPc}
    (waiting : (s.client c).phase = .waiting id) (ready : s.results id = some value)
    (idle : pc.phase = .idle)
    : RequestServer.Step s.taskChannel
        { s with
          client := Function.update s.client c pc
          log := { s.log with received := s.log.received ++ [(c, id, value)] } }.taskChannel := by
  convert RequestServer.Step.receive s.taskChannel c id value waiting ready using 1
  simp only [State.taskChannel, phase_update, idle]

/-- A client whose bus access throws abandons its ticket. -/
theorem taskChannel_busThrows {c : ClientId} {id : Nat} {memtask : MemAccess}
    (pc : s.client c = .access id memtask)
    : RequestServer.Step s.taskChannel (s.busThrows c id memtask).taskChannel := by
  have waiting : s.taskChannel.client c = .waiting id := by
    simp [State.taskChannel, pc, ClientPc.phase]
  convert RequestServer.Step.abandon s.taskChannel c id waiting using 1
  simp only [State.busThrows, State.taskChannel, phase_update]
  rfl

/-- The worker takes the oldest ticket. -/
theorem taskChannel_takeTask {task : PythonTask} {rest : List PythonTask}
    (pc : s.worker = .take) (queued : s.taskQueue = task :: rest)
    (unset : s.results task.result = none)
    : RequestServer.Step s.taskChannel
        { s with
          taskMutex := false, taskQueue := rest, worker := .dispatch task
          log := { s.log with taken := s.log.taken ++ [task] } }.taskChannel := by
  have awake : s.taskChannel.server = .awake := by rw [State.taskChannel, pc]; rfl
  have oldest : s.taskChannel.queue = task.result :: rest.map PythonTask.result := by
    simp [State.taskChannel, queued]
  convert RequestServer.Step.take s.taskChannel task.result _ awake oldest using 1
  simp [State.taskChannel, WorkerPc.phase, WorkerPc.task?, unset]

/-- Setting the promise settles the ticket that the worker is busy with. -/
theorem taskChannel_setValue {task : PythonTask} {value : BitVec 64} {next : Unit → Script π}
    (pc : s.worker = .handler task (.ask (.setValue value) next))
    (unset : s.results task.result = none)
    : RequestServer.Step s.taskChannel
        { s with
          worker := .handler task (next ())
          results := Function.update s.results task.result (some value)
          log := { s.log with
            values := s.log.values ++ [(task.result, value)] } }.taskChannel := by
  have busy : s.taskChannel.server = .busy task.result := by
    simp [State.taskChannel, WorkerPc.phase, WorkerPc.task?, pc, unset]
  convert RequestServer.Step.settle s.taskChannel task.result value busy using 1
  simp [State.taskChannel, WorkerPc.phase, WorkerPc.task?]

/-- A handler that returns finishes a settled ticket. -/
theorem taskChannel_handled {task : PythonTask} (pc : s.worker = .handler task (.ret ()))
    (set : (s.results task.result).isSome)
    : RequestServer.Step s.taskChannel
        { s with
          worker := .lock
          log := { s.log with handled := s.log.handled ++ [task] } }.taskChannel := by
  have settled : s.taskChannel.server = .settled task.result := by
    simp [State.taskChannel, WorkerPc.phase, WorkerPc.task?, pc, set]
  exact RequestServer.Step.finish s.taskChannel task.result settled

/-- Every move is a step of the channel or leaves it alone, by cases on the move. -/
theorem Move.taskChannel (inv : WorkerInvariant s)
    (channel : RequestServer.Invariant s.taskChannel) (move : Move vp s label after)
    : after.taskChannel = s.taskChannel
      ∨ RequestServer.Step s.taskChannel after.taskChannel := by
  have coherent := inv.coherent
  cases move with
  | call c op pc => exact Or.inl (taskChannel_call op pc)
  | pushTask c op pc => exact Or.inr (taskChannel_pushTask inv pc)
  | notifyTask c op id pc => exact Or.inr (taskChannel_notifyTask pc)
  | finish c op id value pc ready =>
      right
      cases op <;> exact taskChannel_receive (by rw [pc]; rfl) ready rfl
  | leaveLoop c id value pc ready => exact Or.inr (taskChannel_receive (by rw [pc]; rfl) ready rfl)
  | setSimStarted _ _ _ pc | stayInLoop _ _ pc | lockMemtask _ _ pc | testTrue _ _ pc
  | testFalse _ _ pc | sleepMemtask _ _ pc | takeMemtask _ _ _ _ pc | continueLoop _ _ pc
  | access _ _ _ pc | answer _ _ _ _ pc | clearSimStarted _ pc | joined _ pc =>
      exact Or.inl (taskChannel_congr (phase_update_self (by rw [pc]; rfl)) rfl rfl rfl)
  | busThrows c id memtask pc => exact Or.inr (taskChannel_busThrows pc)
  | spuriousClient c id pc =>
      exact Or.inl (taskChannel_congr (phase_update_self (by simp only [pc]; rfl)) rfl rfl rfl)
  | spuriousWorker pc =>
      right
      have asleep : s.taskChannel.server = .asleep := by simp [State.taskChannel, pc, WorkerPc.phase]
      exact RequestServer.Step.wake s.taskChannel asleep
  | lock _ pc | workerTestTrue _ pc | workerTestFalse _ pc | exit _ pc =>
      exact Or.inl (taskChannel_congr rfl (by rw [pc]; rfl) rfl rfl)
  | sleep _ pc =>
      right
      have awake : s.taskChannel.server = .awake := by rw [State.taskChannel, pc]; rfl
      exact RequestServer.Step.sleep s.taskChannel awake
        (by simp [State.taskChannel, inv.sleeping pc])
  | takeTask _ task rest pc queued =>
      have unset := channel.queued_unreplied
        (show task.result ∈ s.taskChannel.queue by simp [State.taskChannel, queued])
      exact Or.inr (taskChannel_takeTask pc queued unset)
  | dispatch _ task pc | filterCallback _ task _ _ pc | dropCallback _ task _ _ pc
  | beginCallback _ task _ _ pc | enter _ task _ _ pc | leave _ task _ _ _ pc
  | storeCpu _ task _ _ pc | storeCycles _ task _ _ pc | badVariantAccess _ task _ pc
  | pushMemtask _ task _ _ pc | leaveCallback _ task _ _ _ _ pc | brokenPromise _ task _ _ _ pc =>
      have busy : s.worker.task? = some task := by rw [pc]; rfl
      exact Or.inl (taskChannel_congr rfl (WorkerPc.phase_same busy rfl) rfl rfl)
  | handled _ task pc =>
      rw [pc] at coherent
      exact Or.inr (taskChannel_handled pc coherent.handled.1)
  | setValue _ task value next pc =>
      rw [pc] at coherent
      exact Or.inr (taskChannel_setValue pc (coherent.pending (by simp)).1)
  | notifyHandler _ task _ pc _ notified | notifyMem _ task _ _ _ pc _ notified =>
      have busy : s.worker.task? = some task := by rw [pc]; rfl
      obtain ⟨cv, client, rfl, same⟩ := notifyMemtask_frame notified
      exact Or.inl (taskChannel_congr (funext fun c => phase_woken (same c)) (WorkerPc.phase_same busy rfl) rfl rfl)

/-- The channel and the worker in agreement. -/
structure ChannelInvariant (s : State π β) : Prop where
  worker : WorkerInvariant s
  channel : RequestServer.Invariant s.taskChannel

/-- A core before its constructor satisfies the invariant. -/
theorem ChannelInvariant.initial (py : π) (bus : β) : ChannelInvariant (State.initial py bus) where
  worker := by
    constructor <;> simp [State.initial, WorkerPc.locksTask, WorkerPc.task?, WorkerPc.Coherent]
  channel := RequestServer.Invariant.initial

/-- Every move keeps the channel and the worker in agreement. -/
theorem ChannelInvariant.move (inv : ChannelInvariant s) (move : Move vp s label after)
    : ChannelInvariant after where
  worker := inv.worker.move inv.channel move
  channel := by
    rcases move.taskChannel inv.worker inv.channel with same | step
    · exact same ▸ inv.channel
    · exact inv.channel.step step

end VcmlPydrofoil
