import VcmlPydrofoil.MemoryChannel.Exceptions
import VcmlPydrofoil.TaskChannel.Lifetime

/-! The stop request: `stop_worker` is only set together with the task that frees the CPU, and
the worker leaves its loop only after it.
-/

namespace VcmlPydrofoil

open Interaction (Tree)

variable {π β : Type} {vp : Platform π β} {s after : State π β} {label : Label}

/-- How the stop request, the last task and the worker's exit belong together. -/
structure ShutdownInvariant (s : State π β) : Prop where
  stop : s.stopWorker = true ↔ .freeCpu ∈ s.postedFuncts
  sleeping : s.worker = .sleep → s.stopWorker = false
  asleep : s.worker = .asleep → s.stopWorker = true → s.taskQueue ≠ []
  exited : s.worker = .exited → s.stopWorker = true ∧ s.taskQueue = []
  joining : ∀ c, s.client c = .joinWorker → s.cpu.isSome → s.stopWorker = true
  dead : s.lifetime = .dead → s.worker = .exited

/-- Nothing is pushed after the destructor's task. -/
theorem LifetimeInvariant.not_freed (inv : LifetimeInvariant s) {c : ClientId} {op : Operation}
    (pc : s.client c = .push op)
    : .freeCpu ∉ s.postedFuncts := by
  have living {functs : List Funct} (shape : Alive functs) : .freeCpu ∉ functs := by
    obtain ⟨middle, rfl, _, noFree⟩ := shape
    simpa using noFree
  cases inv with
  | alive _ _ shape _ => exact living shape
  | alone d idle stage =>
      obtain rfl := alone_client idle (by simp [pc] : s.client c ≠ .idle)
      cases here : s.lifetime <;> simp only [here, Lifetime.Stage, pc] at stage
      case unborn => simp at stage
      case constructing =>
        rcases stage with ⟨none, _⟩ | ⟨init, _⟩ | ⟨both, _⟩
        · simp [none]
        · simp [init]
        · simp [both]
      case destructing =>
        rcases stage with ⟨_, ⟨shape, _⟩ | ⟨_, ⟨_, other⟩ | other⟩⟩
        · exact living shape
        · simp at other
        · simp at other
      case dead => simp at stage

/-- Only the first ticket is that of a constructor's task. -/
theorem LifetimeInvariant.init_first (inv : LifetimeInvariant s) {position : Nat}
    (found : s.postedFuncts[position]? = some .init)
    : position = 0 := by
  have living {functs : List Funct} (shape : Alive functs)
      (found : functs[position]? = some .init) : position = 0 := by
    obtain ⟨middle, rfl, noInit, _⟩ := shape
    cases position with
    | zero => rfl
    | succ earlier =>
        rw [List.getElem?_cons_succ] at found
        exact absurd (List.mem_of_getElem? found) noInit
  rcases inv.posted with none | shape | ⟨earlier, same, shape⟩
  · simp [none] at found
  · exact living shape found
  · rw [same] at found
    refine living shape ?_
    rw [List.getElem?_append] at found
    split at found
    · exact found
    · have := List.mem_of_getElem? found
      simp at this

/-- While the constructor's task is being handled, the object is not allocated yet. -/
theorem CoreInvariant.unallocated (core : CoreInvariant s) (lifetime : LifetimeInvariant s)
    {task : PythonTask} (busy : s.worker.task? = some task) (init : task.pyFunct = .init)
    (unset : s.results task.result = none)
    : s.allocated = false := by
  have worker := core.channel.worker
  have taken : task ∈ s.log.taken ++ s.taskQueue := by
    rw [← worker.handling, busy]
    simp
  rw [worker.order] at taken
  obtain ⟨entry, member, rfl⟩ := List.mem_map.mp taken
  obtain ⟨position, posted⟩ := List.getElem?_of_mem member
  have first : position = 0 :=
    lifetime.init_first (by simp [State.postedFuncts, List.getElem?_map, posted, init])
  rw [worker.ticket_at posted, first] at unset
  simp [State.allocated, unset]

/-- A move that leaves the worker, the queue and the stop request alone, and sends no client to
its join.
-/
theorem ShutdownInvariant.frame (inv : ShutdownInvariant s)
    (worker : after.worker = s.worker) (cpu : after.cpu = s.cpu)
    (queue : (after.stopWorker, after.taskQueue, after.log.posted)
      = (s.stopWorker, s.taskQueue, s.log.posted))
    (joining : ∀ c, after.client c = .joinWorker → s.client c = .joinWorker)
    (dead : after.lifetime = .dead → s.lifetime = .dead)
    : ShutdownInvariant after := by
  simp only [Prod.mk.injEq] at queue
  obtain ⟨stop, queue, posted⟩ := queue
  constructor
  · simpa only [stop, State.postedFuncts, posted] using inv.stop
  · simpa only [worker, stop] using inv.sleeping
  · simpa only [worker, stop, queue] using inv.asleep
  · simpa only [worker, stop, queue] using inv.exited
  · simpa only [cpu, stop] using fun c pc => inv.joining c (joining c pc)
  · simpa only [worker] using fun ended => inv.dead (dead ended)

/-- A client that moves to a control point other than its join. -/
theorem ShutdownInvariant.client (inv : ShutdownInvariant s) {c : ClientId} {pc : ClientPc}
    (other : pc ≠ .joinWorker) (client : after.client = Function.update s.client c pc)
    (worker : after.worker = s.worker) (cpu : after.cpu = s.cpu)
    (queue : (after.stopWorker, after.taskQueue, after.log.posted)
      = (s.stopWorker, s.taskQueue, s.log.posted))
    (dead : after.lifetime = .dead → s.lifetime = .dead)
    : ShutdownInvariant after := by
  refine inv.frame worker cpu queue (fun d joins => ?_) dead
  rw [client] at joins
  by_cases same : d = c
  · rw [same, Function.update_self] at joins
    exact absurd joins other
  · rwa [Function.update_of_ne same] at joins

/-- The worker moves between control points at which it neither sleeps nor has left. -/
theorem ShutdownInvariant.working (inv : ShutdownInvariant s)
    (before : s.worker ≠ .exited)
    (awake : after.worker ≠ .sleep ∧ after.worker ≠ .asleep ∧ after.worker ≠ .exited)
    (cpu : after.cpu = s.cpu) (stop : after.stopWorker = s.stopWorker)
    (posted : after.log.posted = s.log.posted) (client : after.client = s.client)
    (lifetime : after.lifetime = s.lifetime)
    : ShutdownInvariant after := by
  constructor
  · simpa only [stop, State.postedFuncts, posted] using inv.stop
  · exact fun sleeping => absurd sleeping awake.1
  · exact fun asleep => absurd asleep awake.2.1
  · exact fun exited => absurd exited awake.2.2
  · simpa only [client, cpu, stop] using inv.joining
  · exact fun dead => absurd (inv.dead (lifetime ▸ dead)) before

/-- A destructor that goes straight to its join was called on no handle. -/
theorem ShutdownInvariant.call (inv : ShutdownInvariant s) {c : ClientId} {op : Operation}
    (pc : s.client c = .idle) (allowed : lifetimeGuard s (.call c op))
    : ShutdownInvariant (s.call c op) := by
  have notDead : s.lifetime.called op ≠ .dead := by
    cases op <;> simp only [lifetimeGuard] at allowed <;> simp_all [Lifetime.called]
  rcases call_cases s c op pc with ⟨_, same⟩ | ⟨refused, _, _, same⟩ <;> rw [same]
  · exact inv.client (by simp) rfl rfl rfl rfl (fun dead => absurd dead notDead)
  · cases op with
    | destruct =>
        have noHandle : s.cpu.isSome = false := refused
        exact {
          inv with
          joining := fun _ _ handle => absurd handle (by simp [noHandle])
          dead := fun dead => absurd dead notDead
        }
    | _ => exact inv.client (by intro joins; cases joins) rfl rfl rfl rfl (fun dead => absurd dead notDead)

/-- The stop request is set together with the task that frees the CPU. -/
theorem ShutdownInvariant.pushTask (inv : ShutdownInvariant s) (worker : WorkerInvariant s)
    (lifetime : LifetimeInvariant s) {c : ClientId} {op : Operation} (pc : s.client c = .push op)
    (free : s.taskMutex = false)
    : ShutdownInvariant (s.pushTask c op) := by
  have notFreed := lifetime.not_freed pc
  have running : s.stopWorker = false := by
    simpa [notFreed] using inv.stop
  have functs : (s.pushTask c op).postedFuncts = s.postedFuncts ++ [op.pyFunct] := by
    simp [State.postedFuncts, State.pushTask, Operation.task]
  constructor
  · rw [functs]
    cases op <;> simp [State.pushTask, running, notFreed, Operation.pyFunct]
  · intro sleeping
    have sleeping : s.worker = .sleep := sleeping
    have mutex := worker.mutex
    simp [sleeping, free, WorkerPc.locksTask] at mutex
  · exact fun _ _ => by simp [State.pushTask]
  · intro exited
    have := (inv.exited exited).1
    simp [running] at this
  · intro d joins handle
    have joins : (s.pushTask c op).client d = .joinWorker := joins
    by_cases same : d = c
    · subst d
      cases op <;> simp [State.pushTask] at joins
    · have := inv.joining d (by simpa [State.pushTask, same] using joins) handle
      simp [running] at this
  · exact inv.dead

/-- A destructor that has its value set the stop request when it pushed its task. -/
theorem ShutdownInvariant.finish (inv : ShutdownInvariant s) (tickets : TicketInvariant s)
    {c : ClientId} {op : Operation} {id : Nat} {value : BitVec 64}
    (pc : s.client c = .getResult op id)
    : ShutdownInvariant (s.finish c op id value) := by
  obtain ⟨counts, returned, same⟩ := finish_eq s c op id value
  rw [same]
  have dead (ended : op.lifetime s.lifetime = .dead) : s.lifetime = .dead := by
    cases op <;> cases here : s.lifetime <;>
      simp_all [Operation.lifetime, Lifetime.constructed]
  cases op with
  | destruct =>
      obtain ⟨task, posted, funct, _⟩ := tickets c .freeCpu id (by rw [pc]; rfl)
      have stop : s.stopWorker = true :=
        inv.stop.mpr (List.mem_map.mpr ⟨(c, task), posted, funct⟩)
      exact { inv with joining := fun _ _ _ => stop, dead := fun ended => inv.dead (dead ended) }
  | _ => exact inv.client (by intro joins; cases joins) rfl rfl rfl rfl dead

/-- The handle is stored before any client can destroy the object. -/
theorem ShutdownInvariant.storeCpu (inv : ShutdownInvariant s) (core : CoreInvariant s)
    (lifetime : LifetimeInvariant s) {task : PythonTask} {cpu : Option Handle}
    {next : Unit → Script π} (pc : s.worker = .handler task (.ask (.storeCpu cpu) next))
    : ShutdownInvariant { s with worker := .handler task (next ()), cpu := cpu } := by
  have coherent := core.channel.worker.coherent
  rw [pc] at coherent
  obtain ⟨unset, _, pending, _⟩ := coherent.pending (by simp)
  cases pending with
  | storeCpu _ init _ =>
      have unallocated := core.unallocated lifetime (by rw [pc]; rfl) init unset
      have nobody (c : ClientId) : s.client c ≠ .joinWorker := by
        intro joins
        cases lifetime with
        | alive _ set _ _ => simp [unallocated] at set
        | alone d idle stage =>
            obtain rfl := alone_client idle (by simp [joins] : s.client c ≠ .idle)
            cases here : s.lifetime <;>
              simp [here, Lifetime.Stage, joins, unallocated] at stage
      have notDead : s.lifetime ≠ .dead := fun dead => by simp [inv.dead dead] at pc
      exact {
        stop := inv.stop
        sleeping := fun sleeping => by simp at sleeping
        asleep := fun asleep => by simp at asleep
        exited := fun exited => by simp at exited
        joining := fun c joins => absurd joins (nobody c)
        dead := fun dead => absurd dead notDead
      }

/-- The notification of a task wakes the worker or leaves it alone. -/
theorem ShutdownInvariant.notifyTask (inv : ShutdownInvariant s) (c : ClientId) (op : Operation)
    (id : Nat)
    : ShutdownInvariant (s.notifyTask c op id) := by
  have awake : ShutdownInvariant { s with worker := (s.notifyTask c op id).worker } := by
    rcases notifyTask_worker s c op id with ⟨asleep, woken⟩ | ⟨_, same⟩
    · rw [woken]
      exact inv.working (by simp [asleep]) ⟨by simp, by simp, by simp⟩ rfl rfl rfl rfl rfl
    · rw [same]
      exact inv
  refine awake.client ?_ rfl rfl rfl rfl (fun dead => dead)
  cases op <;> intro joins <;> cases joins

/-- A notification on `memtask_cv` sends nobody to its join. -/
theorem ShutdownInvariant.notify (inv : ShutdownInvariant s) {wake : Nat}
    (notified : s.notifyMemtask wake = some after)
    : ShutdownInvariant after := by
  obtain ⟨cv, client, rfl, woken⟩ := notifyMemtask_frame notified
  refine inv.frame rfl rfl rfl (fun c joins => ?_) (fun dead => dead)
  rcases woken c with same | ⟨_, _, lock⟩
  · exact same ▸ joins
  · have joins : client c = .joinWorker := joins
    simp [lock] at joins

/-- Every move keeps the stop request, the last task and the exit together. -/
theorem ShutdownInvariant.move (inv : ShutdownInvariant s) (core : CoreInvariant s)
    (lifetime : LifetimeInvariant s) (move : Move vp s label after)
    (allowed : lifetimeGuard s label)
    : ShutdownInvariant after := by
  cases move with
  | call c op pc => exact inv.call pc allowed
  | pushTask c op pc free => exact inv.pushTask core.channel.worker lifetime pc free
  | finish c op id value pc => exact inv.finish core.tickets pc
  | notifyTask c op id => exact inv.notifyTask c op id
  | setSimStarted | leaveLoop | stayInLoop | lockMemtask | testTrue | testFalse | sleepMemtask
  | takeMemtask | continueLoop | access | answer | clearSimStarted | busThrows =>
      exact inv.client (by simp) rfl rfl rfl rfl id
  | joined c pc exited =>
      have joined : ShutdownInvariant { s with lifetime := .dead } :=
        { inv with dead := fun _ => exited }
      exact joined.client (by simp) rfl rfl rfl rfl id
  | spuriousClient c id pc =>
      exact inv.client (by simp [pc]) rfl rfl rfl rfl (fun dead => dead)
  | lock _ pc | workerTestTrue _ pc | takeTask _ _ _ pc | dispatch _ _ pc | handled _ _ pc
  | filterCallback _ _ _ _ pc | dropCallback _ _ _ _ pc | beginCallback _ _ _ _ pc
  | enter _ _ _ _ pc | leave _ _ _ _ _ pc | storeCycles _ _ _ _ pc | setValue _ _ _ _ pc
  | badVariantAccess _ _ _ pc | pushMemtask _ _ _ _ pc | leaveCallback _ _ _ _ _ _ pc
  | brokenPromise _ _ _ _ _ pc | spuriousWorker pc =>
      refine inv.working (by simp [pc]) ?_ rfl rfl rfl rfl rfl
      refine ⟨?_, ?_, ?_⟩ <;> intro ends <;> cases ends
  | workerTestFalse _ pc empty running =>
      exact {
        inv with
        sleeping := fun _ => running
        asleep := fun asleep => by simp at asleep
        exited := fun exited => by simp at exited
        dead := fun dead => by simp [inv.dead dead] at pc
      }
  | sleep _ pc =>
      have running := inv.sleeping pc
      exact {
        inv with
        sleeping := fun _ => running
        asleep := fun _ stop => by simp [running] at stop
        exited := fun exited => by simp at exited
        dead := fun dead => by simp [inv.dead dead] at pc
      }
  | exit _ pc empty stop =>
      exact {
        inv with
        sleeping := fun sleeping => by simp at sleeping
        asleep := fun asleep => by simp at asleep
        exited := fun _ => ⟨stop, empty⟩
        dead := fun _ => rfl
      }
  | storeCpu _ task cpu next pc => exact inv.storeCpu core lifetime pc
  | notifyHandler _ _ _ pc _ notified =>
      have same := notifyMemtask_worker notified
      exact (inv.notify notified).working (by simp [same, pc]) ⟨by simp, by simp, by simp⟩
        rfl rfl rfl rfl rfl
  | notifyMem _ _ _ _ _ pc _ notified =>
      have same := notifyMemtask_worker notified
      exact (inv.notify notified).working (by simp [same, pc]) ⟨by simp, by simp, by simp⟩
        rfl rfl rfl rfl rfl

-----------------------------------------------------------------------------------------
-- Runs in which every operation completes
-----------------------------------------------------------------------------------------

/-- The invariants of a run in which every operation completes. -/
structure CompletingInvariant (s : State π β) : Prop where
  core : CoreInvariant s
  lifetime : LifetimeInvariant s
  shutdown : ShutdownInvariant s
  completed : s.log.abandoned = []

/-- The process of such a run does not abort. -/
theorem CompletingInvariant.not_aborted (inv : CompletingInvariant s) : s.aborted = false :=
  inv.core.exceptions.running inv.completed

/-- A move that is no exception abandons nothing. -/
theorem Move.abandoned (move : Move vp s label after) (completes : ∀ c, label ≠ .busThrows c)
    : after.log.abandoned = s.log.abandoned := by
  cases move with
  | call c op pc =>
      rcases call_cases s c op pc with ⟨_, same⟩ | ⟨_, _, _, same⟩ <;> rw [same]
  | finish c op id value pc =>
      obtain ⟨counts, returned, same⟩ := finish_eq s c op id value
      rw [same]
  | busThrows c => exact absurd rfl (completes c)
  | notifyHandler _ _ _ _ _ notified | notifyMem _ _ _ _ _ _ _ notified =>
      obtain ⟨cv, client, rfl, _⟩ := notifyMemtask_frame notified
      rfl
  | _ => rfl

/-- A move is the exception of an access that is being served, or none at all. -/
theorem Move.throws_or_completes (move : Move vp s label after)
    : (∃ c id memtask, s.client c = .access id memtask ∧ after = s.busThrows c id memtask)
      ∨ ∀ c, label ≠ .busThrows c := by
  cases move with
  | busThrows c id memtask pc => exact Or.inl ⟨c, id, memtask, pc, rfl⟩
  | _ => exact Or.inr (by simp)

/-- A state without an exception is not reached by one. -/
theorem Move.completes (move : Move vp s label after) (completed : after.log.abandoned = [])
    : (∀ c, label ≠ .busThrows c) ∧ s.log.abandoned = [] := by
  rcases move.throws_or_completes with ⟨c, id, memtask, _, rfl⟩ | completes
  · simp [State.busThrows] at completed
  · exact ⟨completes, (move.abandoned completes).symm.trans completed⟩

/-- Every move of a run in which operations complete keeps the invariants. -/
theorem CompletingInvariant.moves (inv : CompletingInvariant s)
    (moved : (coreSystem vp).Moves completingGuard s after)
    : CompletingInvariant after := by
  obtain ⟨label, allowed, stepped⟩ := moved
  have move := step_move stepped
  have lifetime := lifetimeGuard_of_completing s label allowed
  refine {
    core := inv.core.move move
    lifetime := inv.lifetime.move inv.core.channel.worker move lifetime
    shutdown := inv.shutdown.move inv.core inv.lifetime move lifetime
    completed := (move.abandoned ?_).trans inv.completed
  }
  rintro c rfl
  exact allowed

/-- The invariants hold before the constructor. -/
theorem CompletingInvariant.initial (py : π) (bus : β)
    : CompletingInvariant (State.initial py bus) where
  core := .initial py bus
  lifetime := .initial py bus
  shutdown := by constructor <;> simp [State.initial, State.postedFuncts]
  completed := rfl

/-- The invariants hold in every state of every run in which operations complete. -/
theorem CompletingInvariant.reaches {start : State π β}
    (reached : (coreSystem vp).Reaches completingGuard start s)
    (initially : CompletingInvariant start)
    : CompletingInvariant s :=
  reached.invariant (fun _ _ inv moved => inv.moves moved) initially

/-- Every reply that a client waits for is there. -/
def Replied (s : State π β) : Prop :=
  ∀ c id, (s.client c).phase.ticket? = some id → (s.results id).isSome

/-- When nobody waits, every reply is there. -/
theorem Replied.of_idle (nobody : ∀ c, (s.client c).phase = .idle) : Replied s := by
  intro c id waits
  simp [nobody, RequestServer.ClientPhase.ticket?] at waits

/-- When every awaited reply is there, every task has one and none is queued. -/
theorem CompletingInvariant.answered (inv : CompletingInvariant s) (replied : Replied s)
    : s.taskQueue = []
      ∧ ∀ task, s.worker.task? = some task → (s.results task.result).isSome := by
  have channel := inv.core.channel.channel
  have set (id : Nat) (bound : id < s.taskChannel.posted.length) : (s.results id).isSome := by
    by_contra set
    have unset : s.results id = none := by simpa using set
    have held := channel.unanswered_held (List.getElem?_eq_getElem bound) unset
      (by simp [State.taskChannel, inv.completed])
    exact set (replied _ id held)
  constructor
  · by_contra queued
    obtain ⟨task, rest, queue⟩ := List.exists_cons_of_ne_nil queued
    have member : task.result ∈ s.taskChannel.queue := by simp [State.taskChannel, queue]
    have answered := set _ (channel.queue_lt (List.mem_append_right _ member))
    have unset : s.results task.result = none := channel.queued_unreplied member
    simp [unset] at answered
  · intro task busy
    have taken : task ∈ s.log.taken := by
      rw [← inv.core.channel.worker.handling, busy]
      simp
    exact set _ (channel.queue_lt (List.mem_append_left _ (List.mem_map_of_mem taken)))

/-- When every awaited reply is there, the worker has at most the tail of a handler left to
run.
-/
theorem CompletingInvariant.resting (inv : CompletingInvariant s) (replied : Replied s)
    : s.taskQueue = []
      ∧ (s.worker.task? = none
        ∨ ∃ task script,
            s.worker = .handler task script
            ∧ (script = task.pyFunct.tail ∨ script = Script.done)) := by
  obtain ⟨empty, answered⟩ := inv.answered replied
  refine ⟨empty, ?_⟩
  have coherent := inv.core.channel.worker.coherent
  cases pc : s.worker with
  | handler task script =>
      have set := answered task (by rw [pc]; rfl)
      rw [pc] at coherent
      rcases coherent with ⟨unset, _⟩ | ⟨_, rest, _⟩
      · simp [unset] at set
      · exact Or.inr ⟨task, script, rfl, rest⟩
  | dispatch task =>
      have set := answered task (by rw [pc]; rfl)
      rw [pc] at coherent
      simp [coherent.2.1] at set
  | post task | notifyMem task | getAnswer task | terminated task =>
      have set := answered task (by rw [pc]; rfl)
      rw [pc] at coherent
      simp [coherent.1] at set
  | _ => exact Or.inl rfl

end VcmlPydrofoil
