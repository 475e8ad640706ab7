import VcmlPydrofoil.Correctness.TaskServer
import VcmlPydrofoil.TaskChannel.StopRequest

/-! The destructor shuts the worker down exactly when the constructor's allocation gave it a
handle: without one it joins a worker that nobody asks to stop.
-/

namespace VcmlPydrofoil

open Interaction (Tree)

variable {π β : Type} {vp : Platform π β} {s after : State π β} {label : Label}

/-- The destructor is blocked in `done.get()` or in its join. -/
def ClientPc.InDestructor (results : Nat → Option (BitVec 64)) (pc : ClientPc) : Prop :=
  (∃ id, pc = .getResult .destruct id ∧ results id = none) ∨ pc = .joinWorker

/-- The destructor waits for a worker that sleeps, and no notification is left to wake it. -/
def Stuck (s : State π β) : Prop :=
  (∃ c, (s.client c).InDestructor s.results)
  ∧ s.worker = .asleep
  ∧ ∀ c id, (s.client c).phase ≠ .posted id

/-- What holds while the destructor runs and after it. -/
structure CleanShutdown (s : State π β) : Prop where
  neverStuck : ¬ Stuck s
  /-- The worker handled every task before it left. -/
  handled : s.lifetime = .dead → s.taskQueue = [] ∧ s.log.handled = s.log.posted.map Prod.snd
  /-- The CPU is freed once if there is one, and no call comes after that. -/
  freed
    : s.lifetime = .dead
      → ∃ entered,
          s.log.calls = entered.flatMap ApiFunction.bracket
          ∧ AllocateToFree entered
          ∧ entered.count .freeCpu = if s.cpu.isSome then 1 else 0

/-- Once the constructor's task is answered, the handle stays what it is. -/
theorem CompletingInvariant.cpu_moves (inv : CompletingInvariant s) (allocated : s.allocated)
    (moved : (coreSystem vp).Moves completingGuard s after)
    : after.cpu = s.cpu ∧ after.allocated := by
  obtain ⟨label, allowed, stepped⟩ := moved
  cases step_move stepped with
  | call c op pc =>
      obtain ⟨_, _, _, _, results, _⟩ := call_started s op pc
      refine ⟨?_, by rw [State.allocated, results]; exact allocated⟩
      rcases call_cases s c op pc with ⟨_, same⟩ | ⟨_, _, _, same⟩ <;> rw [same]
  | finish c op id value pc =>
      obtain ⟨counts, returned, same⟩ := finish_eq s c op id value
      rw [same]
      exact ⟨rfl, allocated⟩
  | storeCpu _ task cpu next pc =>
      have coherent := inv.core.channel.worker.coherent
      rw [pc] at coherent
      obtain ⟨unset, _, pending, _⟩ := coherent.pending (by simp)
      cases pending with
      | storeCpu _ init _ =>
          have := inv.core.unallocated inv.lifetime (by rw [pc]; rfl) init unset
          simp [this] at allocated
  | setValue _ task value next pc =>
      refine ⟨rfl, ?_⟩
      by_cases same : 0 = task.result
      · simp [State.allocated, ← same]
      · simpa [State.allocated, same] using allocated
  | notifyHandler _ _ _ _ _ notified | notifyMem _ _ _ _ _ _ _ notified =>
      obtain ⟨cv, client, rfl, _⟩ := notifyMemtask_frame notified
      exact ⟨rfl, allocated⟩
  | _ => exact ⟨rfl, allocated⟩

/-- With a handle the destructor is never stuck: the worker is notified of every task, and it
has a stop request before the join.
-/
theorem CompletingInvariant.not_stuck (inv : CompletingInvariant s) (handle : s.cpu.isSome)
    : ¬ Stuck s := by
  rintro ⟨⟨c, blocked⟩, asleep, silent⟩
  have channel := inv.core.channel.channel
  have sleeping : s.taskChannel.server = .asleep := by rw [State.taskChannel, asleep]; rfl
  have queued : s.taskQueue ≠ [] := by
    rcases blocked with ⟨id, pc, unset⟩ | joins
    · have mine : (s.taskChannel.client c).ticket? = some id := by
        simp [State.taskChannel, pc, ClientPc.phase, RequestServer.ClientPhase.ticket?]
      have bound := (List.getElem?_eq_some_iff.mp (channel.holder c id mine)).1
      rcases channel.posted_cases bound with waiting | busy | settled
      · intro empty
        simp [State.taskChannel, empty] at waiting
      · simp [sleeping] at busy
      · have := (channel.replied id).mpr settled
        simp [State.taskChannel, unset] at this
    · exact inv.shutdown.asleep asleep (inv.shutdown.joining c joins handle)
  obtain ⟨d, id, posted⟩ := channel.awake sleeping (by simpa [State.taskChannel] using queued)
  exact silent d id posted

/-- The destructor's task frees the CPU once. -/
theorem count_freeCpu {functs : List Funct} (shape : functs = [] ∨ Ended functs)
    (freed : .freeCpu ∈ functs)
    : (functs.flatMap Funct.calls).count .freeCpu = 1 := by
  rcases shape with rfl | ⟨middle, rfl, _, noFree⟩ | ⟨_, rfl, middle, rfl, noInit, noFree⟩
  · simp at freed
  · simp [noFree] at freed
  · have none : (middle.flatMap Funct.calls).count .freeCpu = 0 :=
      List.count_eq_zero.mpr (calls_middle noInit noFree).2
    simp [Funct.calls, none]

/-- After the join the worker has left its loop behind the last task. -/
theorem CompletingInvariant.clean (inv : CompletingInvariant s) (handle : s.cpu.isSome)
    : CleanShutdown s where
  neverStuck := inv.not_stuck handle
  handled := by
    intro dead
    have exited := inv.shutdown.dead dead
    have handling := inv.core.channel.worker.handling
    have order := inv.core.channel.worker.order
    have empty := (inv.shutdown.exited exited).2
    simp only [exited, WorkerPc.task?, Option.toList_none, List.append_nil] at handling
    exact ⟨empty, by rw [handling, ← order, empty, List.append_nil]⟩
  freed := by
    intro dead
    have exited := inv.shutdown.dead dead
    obtain ⟨stop, empty⟩ := inv.shutdown.exited exited
    have order := inv.core.channel.worker.order
    have coherent := inv.core.channel.worker.coherent
    simp only [exited, WorkerPc.Coherent] at coherent
    rw [empty, List.append_nil] at order
    refine ⟨s.postedFuncts.flatMap Funct.calls, ?_,
      allocateToFree_of_prefix inv.lifetime.posted (List.prefix_refl _), ?_⟩
    · rw [coherent, order, State.postedFuncts, List.flatMap_assoc, List.flatMap_map,
        List.flatMap_map]
      rfl
    · rw [if_pos handle]
      exact count_freeCpu inv.lifetime.posted (inv.shutdown.stop.mp stop)

-----------------------------------------------------------------------------------------
-- Without a handle
-----------------------------------------------------------------------------------------

/-- A step of the worker is a move of every run in which operations complete. -/
theorem worker_moves (stepped : s.workerStep vp 0 = some after)
    : (coreSystem vp).Moves completingGuard s after :=
  .of_step (show completingGuard s (.worker 0) from trivial) (worker_step stepped)

/-- A worker that found nothing to do falls asleep. -/
theorem sleep_sleeps (pc : s.worker = .sleep)
    : (coreSystem vp).Reaches completingGuard s
        { s with taskMutex := false, worker := .asleep } :=
  .single (worker_moves (by simp only [State.workerStep, pc]))

/-- A worker that finds nothing to do falls asleep. -/
theorem test_sleeps (pc : s.worker = .test) (empty : s.taskQueue = [])
    (running : s.stopWorker = false)
    : (coreSystem vp).Reaches completingGuard s
        { s with taskMutex := false, worker := .asleep } := by
  have stepped : s.workerStep vp 0 = some { s with worker := .sleep } := by
    simp [State.workerStep, pc, empty, running]
  exact .head (worker_moves stepped) (sleep_sleeps rfl)

/-- A worker at its loop with nothing to do falls asleep. -/
theorem lock_sleeps (pc : s.worker = .lock) (free : s.taskMutex = false)
    (empty : s.taskQueue = []) (running : s.stopWorker = false)
    : (coreSystem vp).Reaches completingGuard s
        { s with taskMutex := false, worker := .asleep } := by
  have stepped : s.workerStep vp 0 = some { s with taskMutex := true, worker := .test } := by
    simp [State.workerStep, pc, free]
  exact .head (worker_moves stepped) (test_sleeps rfl empty running)

/-- A worker whose handler is done falls asleep. -/
theorem done_sleeps {task : PythonTask} (pc : s.worker = .handler task Script.done)
    (free : s.taskMutex = false) (empty : s.taskQueue = []) (running : s.stopWorker = false)
    : (coreSystem vp).Reaches completingGuard s
        { s with
          taskMutex := false, worker := .asleep
          log := { s.log with handled := s.log.handled ++ [task] } } := by
  have stepped : s.workerStep vp 0
      = some { s with
          worker := .lock, log := { s.log with handled := s.log.handled ++ [task] } } := by
    simp [State.workerStep, pc, Script.done]
  exact .head (worker_moves stepped) (lock_sleeps rfl free empty running)

/-- A worker that has only its notification left, with nobody to wake, falls asleep. -/
theorem tail_sleeps {task : PythonTask} (pc : s.worker = .handler task task.pyFunct.tail)
    (nobody : s.memtaskCv = []) (free : s.taskMutex = false) (empty : s.taskQueue = [])
    (running : s.stopWorker = false)
    : (coreSystem vp).Reaches completingGuard s
        { s with
          taskMutex := false, worker := .asleep
          log := { s.log with handled := s.log.handled ++ [task] } } := by
  unfold Funct.tail at pc
  split at pc
  · have stepped : s.workerStep vp 0 = some { s with worker := .handler task Script.done } := by
      simp [State.workerStep, pc, Script.notifyMemtask, State.runInstr, State.notifyMemtask,
        nobody]
    exact .head (worker_moves stepped) (done_sleeps rfl free empty running)
  · exact done_sleeps pc free empty running

/-- When nobody waits for a reply, the worker finishes its handler and falls asleep. -/
theorem CompletingInvariant.sleeps (vp : Platform π β) (inv : CompletingInvariant s)
    (nobody : ∀ c, (s.client c).phase = .idle) (running : s.stopWorker = false)
    : ∃ handled,
        (coreSystem vp).Reaches completingGuard s
          { s with
            taskMutex := false, worker := .asleep
            log := { s.log with handled := handled } } := by
  obtain ⟨empty, answered⟩ := inv.answered (.of_idle nobody)
  have mutex := inv.core.channel.worker.mutex
  have coherent := inv.core.channel.worker.coherent
  have sleepers : s.memtaskCv = [] := by
    refine List.eq_nil_iff_forall_not_mem.mpr (fun c member => ?_)
    have asleep := (inv.core.locks.sleepers c).mp member
    have idle := nobody c
    cases pc : s.client c <;> simp_all [ClientPc.sleeps, ClientPc.phase]
  cases pc : s.worker with
  | lock => exact ⟨s.log.handled, lock_sleeps pc (by rw [mutex, pc]; rfl) empty running⟩
  | test => exact ⟨s.log.handled, test_sleeps pc empty running⟩
  | sleep => exact ⟨s.log.handled, sleep_sleeps pc⟩
  | asleep =>
      have free : s.taskMutex = false := by rw [mutex, pc]; rfl
      refine ⟨s.log.handled, ?_⟩
      rw [← free, ← pc]
  | take =>
      rcases inv.core.channel.worker.taking pc with queued | stop
      · exact absurd empty queued
      · simp [running] at stop
  | exited => exact absurd (inv.shutdown.exited pc).1 (by simp [running])
  | handler task script =>
      have set := answered task (by rw [pc]; rfl)
      have free : s.taskMutex = false := by rw [mutex, pc]; rfl
      rw [pc] at coherent
      rcases coherent with ⟨unset, _⟩ | ⟨_, rfl | rfl, _⟩
      · simp [unset] at set
      · exact ⟨_, tail_sleeps pc sleepers free empty running⟩
      · exact ⟨_, done_sleeps pc free empty running⟩
  | dispatch task =>
      rw [pc] at coherent
      have set := answered task (by rw [pc]; rfl)
      simp [coherent.2.1] at set
  | post task | notifyMem task | getAnswer task | terminated task =>
      rw [pc] at coherent
      have set := answered task (by rw [pc]; rfl)
      simp [coherent.1] at set

/-- Without a handle a destructor that joins can get stuck, after some steps of the worker. -/
theorem CompletingInvariant.stuck_of_join (inv : CompletingInvariant s)
    (nobody : ∀ c, (s.client c).phase = .idle) (running : s.stopWorker = false) {c : ClientId}
    (joins : s.client c = .joinWorker)
    : ∃ s', (coreSystem vp).Reaches completingGuard s s' ∧ Stuck s' := by
  obtain ⟨handled, reached⟩ := inv.sleeps vp nobody running
  exact ⟨_, reached, ⟨c, Or.inr joins⟩, rfl, fun d id posted => by simp [nobody d] at posted⟩

-----------------------------------------------------------------------------------------
-- The destructor
-----------------------------------------------------------------------------------------

/-- While the object is alive, its allocation is answered and no `FreeCpu` is posted. -/
theorem CompletingInvariant.alive (inv : CompletingInvariant s) (alive : s.lifetime = .alive)
    : s.allocated ∧ Alive s.postedFuncts := by
  cases inv.lifetime with
  | alive _ set shape _ => exact ⟨set, shape⟩
  | alone d others stage => simp [alive, Lifetime.Stage] at stage

/-- While the object is alive, the worker is not asked to stop. -/
theorem CompletingInvariant.running (inv : CompletingInvariant s) (alive : s.lifetime = .alive)
    : s.stopWorker = false := by
  obtain ⟨middle, functs, _, noFree⟩ := (inv.alive alive).2
  have notFreed : .freeCpu ∉ s.postedFuncts := by simpa [functs] using noFree
  simpa [notFreed] using inv.shutdown.stop

/-- Running the destructor when no call is in flight is clean on every interleaving exactly
when the constructor's allocation returned a handle.
-/
theorem destructor_clean_iff (vp : Platform π β) (py : π) (bus : β) {s : State π β}
    (reached : (coreSystem vp).Reaches completingGuard (State.initial py bus) s)
    (alive : s.lifetime = .alive) (idle : ∀ c, s.client c = .idle) (c : ClientId)
    : (∀ s', (coreSystem vp).Reaches completingGuard (s.call c .destruct) s' → CleanShutdown s')
      ↔ s.cpu.isSome := by
  have inv := CompletingInvariant.reaches reached (.initial py bus)
  have allowed : completingGuard s (.call c .destruct) := ⟨alive, idle⟩
  have called : (coreSystem vp).Moves completingGuard s (s.call c .destruct) :=
    .of_step allowed ((step_eq inv.not_aborted _).trans (by simp only [State.threadStep, idle c]))
  have calling := inv.moves called
  obtain ⟨allocated, _⟩ := inv.alive alive
  constructor
  · intro clean
    by_contra noHandle
    have running := inv.running alive
    rcases call_cases s c .destruct (idle c) with ⟨posts, _⟩ | ⟨_, _, _, same⟩
    · exact noHandle posts
    · rw [same] at calling clean
      have joins : Function.update s.client c .joinWorker c = .joinWorker := by simp
      have nobody (d : ClientId)
          : (Function.update s.client c .joinWorker d).phase = .idle := by
        by_cases mine : d = c
        · simp [mine, ClientPc.phase]
        · simp [mine, idle, ClientPc.phase]
      obtain ⟨s', later, stuck⟩ := calling.stuck_of_join nobody running joins
      exact (clean s' later).neverStuck stuck
  · intro handle s' later
    have kept (before after : State π β)
        (inv : CompletingInvariant before ∧ before.allocated ∧ before.cpu.isSome)
        (moved : (coreSystem vp).Moves completingGuard before after)
        : CompletingInvariant after ∧ after.allocated ∧ after.cpu.isSome := by
      obtain ⟨same, still⟩ := inv.1.cpu_moves inv.2.1 moved
      exact ⟨inv.1.moves moved, still, same ▸ inv.2.2⟩
    have start := kept _ _ ⟨inv, allocated, handle⟩ called
    have final := later.invariant kept start
    exact final.1.clean final.2.2

/-- Witness: after a construction with a handle the destructor is clean. -/
theorem destructor_clean_withHandle
    : ∃ s : State Unit Unit,
        s.cpu = some 1
        ∧ ∀ s',
            (coreSystem (scriptedPlatform (some 1) [])).Reaches completingGuard
              (s.call 0 .destruct) s'
            → CleanShutdown s' := by
  have ran
      : ((coreSystem (scriptedPlatform (some 1) [])).runChecked (sequentialCheck 1)
          (State.initial () ()) constructionLabels).map
            (fun s => (s.cpu, s.lifetime, s.allIdle 1))
        = some (some 1, .alive, true) := by
    decide
  obtain ⟨s, executed, same⟩ := Option.map_eq_some_iff.mp ran
  simp only [Prod.mk.injEq] at same
  obtain ⟨reached, unused⟩ := sequential_reaches executed
  exact ⟨s, same.1,
    (destructor_clean_iff _ () () (reached.mono completingGuard_of_sequential) same.2.1
      (unused.allIdle same.2.2) 0).mpr (by simp [same.1])⟩

/-- The destructor of a core whose allocation returned NULL joins a worker that sleeps for good. -/
theorem destructor_stuck_withoutHandle
    : ∃ s : State Unit Unit,
        (coreSystem (scriptedPlatform none [])).Reaches completingGuard (State.initial () ()) s
        ∧ s.lifetime = .destructing ∧ Stuck s := by
  have ran
      : ((coreSystem (scriptedPlatform none [])).runChecked (sequentialCheck 1)
          (State.initial () ())
          (constructionLabels ++ [.call 0 .destruct] ++ List.replicate 3 (.worker 0))).map
            (fun s => (s.lifetime, s.client 0, s.worker.phase s.results))
        = some (.destructing, .joinWorker, .asleep) := by
    decide
  obtain ⟨s, executed, same⟩ := Option.map_eq_some_iff.mp ran
  simp only [Prod.mk.injEq] at same
  obtain ⟨destructing, joins, asleep⟩ := same
  obtain ⟨reached, unused⟩ := sequential_reaches executed
  refine ⟨s, reached.mono completingGuard_of_sequential, destructing, ⟨0, Or.inr joins⟩, ?_, ?_⟩
  · exact WorkerPc.asleep_of_phase asleep
  · intro c id posted
    cases c with
    | zero => simp [joins, ClientPc.phase] at posted
    | succ earlier =>
        simp [unused (earlier + 1) (Nat.succ_le_succ (Nat.zero_le earlier)), ClientPc.phase]
          at posted

end VcmlPydrofoil
