import VcmlPydrofoil.Correctness.Shutdown
import VcmlPydrofoil.Plugin.CycleRuns

/-! A call of `cycle_count` can return wherever VCML makes one: it is served from the copy, or the
worker has nothing else to do.
-/

namespace VcmlPydrofoil

variable {χ β : Type} {ext : Pydrofoil χ} {bus : Bus β} {vp : Platform (World χ) β}
variable {s : State (World χ) β}

/-- The worker may move at any time. -/
theorem worker_reaches {after : State (World χ) β} (stepped : s.workerStep vp 0 = some after)
    : (coreSystem vp).Reaches (fun _ _ => True) s after :=
  .single ⟨.worker 0, trivial, worker_step stepped⟩

/-- A client inside an operation may move while the process runs. -/
theorem client_reaches {after : State (World χ) β} {c : ClientId} (running : s.aborted = false)
    (stepped : s.clientStep vp c = some after)
    : (coreSystem vp).Reaches (fun _ _ => True) s after :=
  .single ⟨.client c, trivial, (step_eq running _).trans stepped⟩

/-- The worker at its loop starts the handler of the one task that is queued. -/
theorem lock_dispatches {task : PythonTask} (pc : s.worker = .lock) (free : s.taskMutex = false)
    (queue : s.taskQueue = [task])
    : (coreSystem vp).Reaches (fun _ _ => True) s
        { s with
          taskMutex := false, taskQueue := []
          worker := .handler task (createHandlers vp.api s.cpu s.py task)
          log := { s.log with taken := s.log.taken ++ [task] } } := by
  have locks : s.workerStep vp 0 = some { s with taskMutex := true, worker := .test } := by
    simp [State.workerStep, pc, free]
  have tests
      : { s with taskMutex := true, worker := .test }.workerStep vp 0
        = some { s with taskMutex := true, worker := .take } := by
    simp [State.workerStep, queue]
  have takes
      : { s with taskMutex := true, worker := .take }.workerStep vp 0
        = some { s with
            taskMutex := false, taskQueue := [], worker := .dispatch task
            log := { s.log with taken := s.log.taken ++ [task] } } := by
    simp [State.workerStep, State.takeTask, queue]
  exact (worker_reaches locks).trans ((worker_reaches tests).trans
    ((worker_reaches takes).trans (worker_reaches rfl)))

/-- The next action of a handler that does not block. -/
theorem handler_runs {after : State (World χ) β} {task : PythonTask} {instr : Instr (World χ)}
    {next : instr.Reply → Script (World χ)} (pc : s.worker = .handler task (.ask instr next))
    (ran : s.runInstr 0 task instr next = some after)
    : (coreSystem vp).Reaches (fun _ _ => True) s after := by
  refine worker_reaches ?_
  rw [State.workerStep, pc]
  exact ran

/-- The handler that reads the count makes no callback, and sets its promise. -/
theorem getCycles_answers (ext : Pydrofoil χ) (bus : Bus β) {s : State (World χ) β}
    {task : PythonTask} (funct : task.pyFunct = .getCycles)
    (pc : s.worker = .handler task (createHandlers (gluecode ext) s.cpu s.py task))
    : ∃ after value,
        (coreSystem (gluePlatform ext bus)).Reaches (fun _ _ => True) s after
        ∧ after.aborted = false
        ∧ after.client = s.client
        ∧ after.results task.result = some value := by
  have counts : ∃ out, (gluecode ext).pydrofoilCpuCycles s.cpu s.py = .ret out := by
    dsimp only [gluecode, Gluecode.cpuCycles, Gluecode.fromHandle, defExtern]
    cases s.py.object? s.cpu with
    | none => exact ⟨_, rfl⟩
    | some object => exact ⟨_, rfl⟩
  obtain ⟨⟨cycles, py⟩, counts⟩ := counts
  rw [createHandlers, funct] at pc
  dsimp only [Handlers.getCycles] at pc
  rw [counts] at pc
  let answers : Script (World χ) :=
    Script.setValue ((cycles.setWidth 32).signExtend 64) Script.done
  let stores : Script (World χ) := Script.storeCycles (cycles.setWidth 32) answers
  let entered : Log (World χ) := { s.log with calls := s.log.calls ++ [.enter .cpuCycles] }
  let left : Log (World χ) := { entered with calls := entered.calls ++ [.leave .cpuCycles] }
  have enters
      : (coreSystem (gluePlatform ext bus)).Reaches (fun _ _ => True) s
          { s with
            worker := .handler task (.ask (.leave .cpuCycles py) fun _ => stores)
            log := entered } :=
    handler_runs pc rfl
  have leaves
      : (coreSystem (gluePlatform ext bus)).Reaches (fun _ _ => True)
          { s with
            worker := .handler task (.ask (.leave .cpuCycles py) fun _ => stores)
            log := entered }
          { s with worker := .handler task stores, py, log := left } :=
    handler_runs rfl rfl
  have stored
      : (coreSystem (gluePlatform ext bus)).Reaches (fun _ _ => True)
          { s with worker := .handler task stores, py, log := left }
          { s with
            worker := .handler task answers, py, nCycles := cycles.setWidth 32, log := left } :=
    handler_runs rfl rfl
  exact ⟨_, (cycles.setWidth 32).signExtend 64,
    enters.trans (leaves.trans (stored.trans (handler_runs rfl rfl))), rfl, rfl,
    Function.update_self ..⟩

/-- A client that is about to push its task comes back with the count when the worker sleeps. -/
theorem push_returns (ext : Pydrofoil χ) (bus : Bus β) {c : ClientId}
    (pc : s.client c = .push .cycleCount) (asleep : s.worker = .asleep)
    (free : s.taskMutex = false) (empty : s.taskQueue = [])
    : ∃ later,
        (coreSystem (gluePlatform ext bus)).Reaches (fun _ _ => True) s later
        ∧ later.client c = .idle := by
  let pushed := s.pushTask c .cycleCount
  let notified := pushed.notifyTask c .cycleCount s.nextTask
  have pushes : s.clientStep (gluePlatform ext bus) c = some pushed := by
    simp [State.clientStep, pc, free, pushed]
  have waits : pushed.client c = .notifyTask .cycleCount s.nextTask := Function.update_self ..
  have notifies : pushed.clientStep (gluePlatform ext bus) c = some notified := by
    simp [State.clientStep, waits, notified]
  have woken : notified.worker = .lock := by
    rcases notifyTask_worker pushed c .cycleCount s.nextTask with ⟨_, woken⟩ | ⟨awake, _⟩
    · exact woken
    · exact absurd asleep awake
  have queue : notified.taskQueue = [Operation.cycleCount.task s.nextTask] := by
    show s.taskQueue ++ _ = _
    rw [empty]
    rfl
  let task := Operation.cycleCount.task s.nextTask
  let dispatched : State (World χ) β :=
    { notified with
      taskMutex := false, taskQueue := []
      worker := .handler task (createHandlers (gluecode ext) notified.cpu notified.py task)
      log := { notified.log with taken := notified.log.taken ++ [task] } }
  obtain ⟨answered, value, answers, running, client, set⟩ :=
    getCycles_answers ext bus
      (show (Operation.cycleCount.task s.nextTask).pyFunct = .getCycles from rfl)
      (show dispatched.worker = _ from rfl)
  have results : answered.client c = .getResult .cycleCount s.nextTask := by
    rw [client]
    exact Function.update_self ..
  have returns
      : answered.clientStep (gluePlatform ext bus) c
        = some (answered.finish c .cycleCount s.nextTask value) := by
    have ready : answered.results s.nextTask = some value := set
    simp [State.clientStep, results, ready]
  have before : s.aborted = false := by rw [State.aborted, asleep]
  refine ⟨_, (client_reaches before pushes).trans
    ((client_reaches (s := pushed) before notifies).trans
      ((lock_dispatches woken free queue).trans
        (answers.trans (client_reaches running returns)))), ?_⟩
  exact Function.update_self ..

/-- A run without an exception so far is one in which every operation completes. -/
theorem completing_of_calm {start : State (World χ) β}
    (reached : (coreSystem vp).Reaches lifecycleGuard start s) (calm : s.log.abandoned = [])
    : (coreSystem vp).Reaches completingGuard start s := by
  induction reached with
  | refl => exact .refl
  | tail _ moved ih =>
      obtain ⟨label, allowed, stepped⟩ := moved
      obtain ⟨completes, before⟩ := (step_move stepped).completes calm
      refine .tail (ih before) ⟨label, ?_, stepped⟩
      cases label with
      | call c op =>
          have callable := allowed.1.1.2
          cases op with
          | destruct => exact (allowed.2 c .destruct rfl).elim
          | simulate cycles => exact callable.1
          | _ => exact callable
      | busThrows c => exact absurd rfl (completes c)
      | _ => trivial

/-- A call of `cycle_count` can return: with the flag set it returns at once, and otherwise nobody
is inside an operation, so the worker falls asleep and is woken for the task.
-/
theorem CycleInvariant.returns (inv : CycleInvariant ext s) {py : World χ} {start : β}
    (reached : (coreSystem (gluePlatform ext bus)).Reaches lifecycleGuard
      (State.initial py start) s)
    {c : ClientId} (idle : s.client c = .idle) (allowed : lifecycleGuard s (.call c .cycleCount))
    : CanReturn (gluePlatform ext bus) s c .cycleCount := by
  obtain ⟨pc, next, _, _, _, client⟩ := call_started s .cycleCount idle
  rcases next with ⟨posts, rfl⟩ | ⟨_, rfl⟩
  · have waiting : s.simStarted = false := by
      have flag : (!s.simStarted) = true := posts
      simpa using flag
    have calm : s.log.abandoned = [] := by
      by_contra thrown
      simp [(inv.frozen thrown).started] at waiting
    have idles (d : ClientId) : s.client d = .idle := by
      by_cases same : d = c
      · rw [same, idle]
      · have yields := allowed.1.1.1 d same
        have awake := allowed.1.2 c .cycleCount rfl posts d
        cases pc : s.client d <;> simp_all [ClientPc.yields]
    have inv := CompletingInvariant.reaches (completing_of_calm reached calm) (.initial py start)
    have alive : s.lifetime = .alive := allowed.1.1.2
    have called
        : (coreSystem (gluePlatform ext bus)).Moves completingGuard s (s.call c .cycleCount) :=
      .of_step (show completingGuard s (.call c .cycleCount) from alive)
        ((step_eq inv.not_aborted _).trans (by simp only [State.threadStep, idle]))
    have calling := inv.moves called
    have nobody (d : ClientId) : ((s.call c .cycleCount).client d).phase = .idle := by
      rw [client]
      by_cases same : d = c
      · rw [same, Function.update_self]
        rfl
      · rw [Function.update_of_ne same, idles d]
        rfl
    have running : (s.call c .cycleCount).stopWorker = false := by
      rcases call_cases s c .cycleCount idle with ⟨_, same⟩ | ⟨_, _, _, same⟩ <;> rw [same] <;>
        exact inv.running alive
    obtain ⟨handled, sleeps⟩ := calling.sleeps (gluePlatform ext bus) nobody running
    obtain ⟨later, returned, free⟩ := push_returns ext bus (c := c)
      (s := { s.call c .cycleCount with
        taskMutex := false, worker := .asleep
        log := { (s.call c .cycleCount).log with handled } })
      (by rw [client, Function.update_self]) rfl rfl (calling.answered (.of_idle nobody)).1
    exact ⟨later, (sleeps.mono fun _ _ _ => trivial).trans returned, free⟩
  · exact ⟨_, .refl, by rw [client, Function.update_self]; rfl⟩

end VcmlPydrofoil
