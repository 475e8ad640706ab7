import VcmlPydrofoil.MemoryChannel.Aborts

/-! The wake-up of the SystemC thread is lost exactly in one window: the Simulate handler sets
its promise and notifies outside `memtask_mutex`, so both may fall between the false predicate
of the wait and the sleep. A bus access that throws loses none: it leaves the worker with one
access and no promise to set.
-/

namespace VcmlPydrofoil

open Interaction (Tree)

variable {π β : Type} {vp : Platform π β} {s after : State π β} {label : Label}

/-- The worker has the `notify_one` at the end of the Simulate handler left to issue. -/
def WorkerPc.finishes : WorkerPc π → Bool
  | .handler _ (.ask .notifyMemtask _) => true
  | _ => false

/-- The worker has a `notify_one` on `memtask_cv` left to issue. -/
def WorkerPc.notifies : WorkerPc π → Bool
  | .notifyMem _ _ _ _ => true
  | pc => pc.finishes

/-- The predicate of the wait at line 107. -/
def State.ready (s : State π β) (id : Nat) : Prop :=
  s.memtaskQueue ≠ [] ∨ (s.results id).isSome

/-- A client sleeps although its predicate holds, and nobody is going to wake it. -/
def LostWakeUp (s : State π β) : Prop :=
  ∃ c id, s.client c = .asleep id ∧ s.ready id ∧ s.worker.notifies = false

/-- In a process that has not aborted, a client in `simulate` and the worker are both blocked,
with no task notification to come.
-/
def BothBlocked (vp : Platform π β) (s : State π β) : Prop :=
  s.aborted = false
  ∧ ∃ c,
      (s.client c).inSimulate = true
      ∧ s.clientStep vp c = none
      ∧ (∀ wake, s.workerStep vp wake = none)
      ∧ ∀ d id, (s.client d).phase ≠ .posted id

/-- The last notification of the handler is not issued between the false predicate of a client
and its sleep, when the promise of that client is already set.
-/
def NotifyAfterSleep (s : State π β) (label : Label) : Prop :=
  ∀ wake task next c id,
    label = .worker wake
    → s.worker = .handler task (.ask .notifyMemtask next)
    → s.client c = .sleepMemtask id
    → s.results id = none

/-- Calls respect the lifetime, with one simulation at a time, and the last notification of a
handler comes before the predicate or after the sleep. Bus accesses may throw.
-/
def wakingGuard (s : State π β) (label : Label) : Prop :=
  lifetimeGuard s label ∧ OneSimulation s label ∧ NotifyAfterSleep s label

/-- A client about to sleep has an empty queue, and a notification to come if its promise is
set; a client that sleeps has a notification to come if its predicate holds.
-/
structure WakeInvariant (s : State π β) : Prop where
  parking
    : ∀ c id,
        s.client c = .sleepMemtask id
        → s.memtaskQueue = [] ∧ ((s.results id).isSome → s.worker.finishes = true)
  sleeping : ∀ c id, s.client c = .asleep id → s.ready id → s.worker.notifies = true

/-- A worker with its last notification left has a notification left. -/
theorem WorkerPc.notifies_of_finishes {pc : WorkerPc π} (finishes : pc.finishes = true)
    : pc.notifies = true := by
  cases pc <;> first | exact finishes | rfl

/-- A client that goes to neither of the two points keeps the invariant. -/
theorem WakeInvariant.client (inv : WakeInvariant s) {c : ClientId} {pc : ClientPc}
    (awake : ∀ id, pc ≠ .sleepMemtask id ∧ pc ≠ .asleep id)
    (client : after.client = Function.update s.client c pc)
    (finishes : after.worker.finishes = s.worker.finishes)
    (notifies : after.worker.notifies = s.worker.notifies)
    (state : (after.memtaskQueue, after.results) = (s.memtaskQueue, s.results))
    : WakeInvariant after := by
  simp only [Prod.mk.injEq] at state
  constructor
  · intro d id parks
    by_cases same : d = c
    · exact absurd (by simpa [client, same] using parks) (awake id).1
    · rw [client, Function.update_of_ne same] at parks
      simpa only [state, finishes] using inv.parking d id parks
  · intro d id sleeps ready
    by_cases same : d = c
    · exact absurd (by simpa [client, same] using sleeps) (awake id).2
    · rw [client, Function.update_of_ne same] at sleeps
      rw [notifies]
      exact inv.sleeping d id sleeps (by simpa only [State.ready, state] using ready)

/-- A worker without a notification to issue finds nobody ready on the way to sleep or asleep,
so it may go anywhere.
-/
theorem WakeInvariant.worker (inv : WakeInvariant s) (quiet : s.worker.notifies = false)
    (client : after.client = s.client)
    (state : (after.memtaskQueue, after.results) = (s.memtaskQueue, s.results))
    : WakeInvariant after := by
  simp only [Prod.mk.injEq] at state
  constructor
  · intro c id parks
    obtain ⟨empty, finishes⟩ := inv.parking c id (client ▸ parks)
    refine ⟨state.1.trans empty, fun set => ?_⟩
    have := WorkerPc.notifies_of_finishes (finishes (state.2 ▸ set))
    simp [quiet] at this
  · intro c id sleeps ready
    have := inv.sleeping c id (client ▸ sleeps) (by simpa only [State.ready, state] using ready)
    simp [quiet] at this

/-- A pushed access comes with its notification. -/
theorem WakeInvariant.pushMemtask (locks : LockInvariant s)
    {task : PythonTask} {request : MemCallback} {next : request.Reply → Script π}
    (free : s.memtaskMutex = false)
    : WakeInvariant (s.pushMemtask task request next) := by
  constructor
  · intro c id parks
    have parks : s.client c = .sleepMemtask id := parks
    have := locks.held.mpr ⟨c, by rw [parks]; rfl⟩
    simp [free] at this
  · exact fun _ _ _ _ => rfl

/-- The promise of a Simulate task is set before the last notification of its handler. -/
theorem WakeInvariant.setValue (inv : WakeInvariant s) (completing : CompletingInvariant s)
    {task : PythonTask} {value : BitVec 64} {next : Unit → Script π}
    (pc : s.worker = .handler task (.ask (.setValue value) next))
    : WakeInvariant
        { s with
          worker := .handler task (next ())
          results := Function.update s.results task.result (some value)
          log := { s.log with values := s.log.values ++ [(task.result, value)] } } := by
  have coherent := completing.core.channel.worker.coherent
  rw [pc] at coherent
  obtain ⟨_, _, pending, _⟩ := coherent.pending (by simp)
  have below : next () = task.pyFunct.tail := by
    cases pending with
    | setValue _ below => exact below
  have finishes (c : ClientId) (current : (s.client c).current = some (.simulate, task.result))
      : (WorkerPc.handler task (next ())).finishes = true := by
    rw [below, completing.core.funct_of_current (by rw [pc]; rfl) current]
    rfl
  have quiet : s.worker.notifies = false := by rw [pc]; rfl
  constructor
  · intro c id parks
    have parks : s.client c = .sleepMemtask id := parks
    obtain ⟨empty, earlier⟩ := inv.parking c id parks
    refine ⟨empty, fun set => ?_⟩
    by_cases same : id = task.result
    · exact finishes c (by rw [parks, same]; rfl)
    · have := WorkerPc.notifies_of_finishes (earlier (by simpa [same] using set))
      simp [quiet] at this
  · intro c id sleeps ready
    have sleeps : s.client c = .asleep id := sleeps
    by_cases same : id = task.result
    · exact WorkerPc.notifies_of_finishes (finishes c (by rw [sleeps, same]; rfl))
    · have := inv.sleeping c id sleeps (by simpa [State.ready, same] using ready)
      simp [quiet] at this

/-- After a notification nobody sleeps any more. -/
theorem SimulationInvariant.nobody_sleeps (inv : SimulationInvariant s) {wake : Nat}
    (notified : s.notifyMemtask wake = some after) (c : ClientId) (id : Nat)
    : after.client c ≠ .asleep id := by
  have locks := inv.completing.core.locks
  rcases locks.notified notified with ⟨nobody, rfl⟩ | ⟨d, ticket, asleep, rfl⟩
  · intro sleeps
    have := (locks.sleepers c).mpr (by rw [sleeps]; rfl)
    simp [nobody] at this
  · by_cases same : c = d
    · subst d
      simp [State.wakeClient, asleep]
    · intro sleeps
      simp only [State.wakeClient, Function.update_of_ne same] at sleeps
      exact same (inv.flags.single c d (by rw [sleeps]; rfl) (by rw [asleep]; rfl))

/-- A client that finds its predicate false is on the way to sleep with nothing to wait for. -/
theorem WakeInvariant.testFalse (inv : WakeInvariant s) {c : ClientId} {id : Nat}
    (empty : s.memtaskQueue = []) (unset : s.results id = none)
    : WakeInvariant (s.goto c (.sleepMemtask id)) := by
  constructor
  · intro d other parks
    by_cases same : d = c
    · obtain rfl : id = other := by simpa [State.goto, same] using parks
      refine ⟨empty, fun set => ?_⟩
      have unset : (s.goto c (.sleepMemtask id)).results id = none := unset
      simp [unset] at set
    · exact inv.parking d other (by simpa [State.goto, same] using parks)
  · intro d other sleeps ready
    by_cases same : d = c
    · simp [State.goto, same] at sleeps
    · exact inv.sleeping d other (by simpa [State.goto, same] using sleeps) ready

/-- A client that falls asleep with its promise set has a notification to come. -/
theorem WakeInvariant.sleepMemtask (inv : WakeInvariant s) {c : ClientId} {id : Nat}
    (pc : s.client c = .sleepMemtask id)
    : WakeInvariant (s.sleepMemtask c id) := by
  obtain ⟨empty, finishes⟩ := inv.parking c id pc
  constructor
  · intro d other parks
    by_cases same : d = c
    · simp [State.sleepMemtask, same] at parks
    · exact inv.parking d other (by simpa [State.sleepMemtask, same] using parks)
  · intro d other sleeps ready
    by_cases same : d = c
    · obtain rfl : id = other := by simpa [State.sleepMemtask, same] using sleeps
      rcases ready with queued | set
      · exact absurd empty queued
      · exact WorkerPc.notifies_of_finishes (finishes set)
    · exact inv.sleeping d other (by simpa [State.sleepMemtask, same] using sleeps) ready

/-- A taken access leaves a shorter queue, and nobody was on the way to sleep. -/
theorem WakeInvariant.takeMemtask (inv : WakeInvariant s) {c : ClientId} {id : Nat}
    {memtask : MemAccess} {rest : List MemAccess} (queued : s.memtaskQueue = memtask :: rest)
    : WakeInvariant
        { s with
          memtaskMutex := false, memtaskQueue := rest
          client := Function.update s.client c (.access id memtask) } := by
  constructor
  · intro d other parks
    by_cases same : d = c
    · simp [same] at parks
    · have := (inv.parking d other (by simpa [same] using parks)).1
      simp [queued] at this
  · intro d other sleeps ready
    by_cases same : d = c
    · simp [same] at sleeps
    · refine inv.sleeping d other (by simpa [same] using sleeps) ?_
      rcases ready with more | set
      · exact Or.inl (by simp [queued])
      · exact Or.inr set

/-- A notification finds nobody on the way to sleep with its promise set. -/
theorem WakeInvariant.notify (inv : WakeInvariant s) (sim : SimulationInvariant s) {wake : Nat}
    {worker : WorkerPc π} (notified : s.notifyMemtask wake = some after)
    (unset : ∀ c id, s.client c = .sleepMemtask id → s.results id = none)
    : WakeInvariant { after with worker := worker } := by
  have nobody := sim.nobody_sleeps notified
  obtain ⟨cv, client, rfl, woken⟩ := notifyMemtask_frame notified
  constructor
  · intro c id parks
    have parked : s.client c = .sleepMemtask id := by
      rcases woken c with same | ⟨_, _, lock⟩
      · exact same ▸ parks
      · have parks : client c = .sleepMemtask id := parks
        simp [lock] at parks
    refine ⟨(inv.parking c id parked).1, fun set => ?_⟩
    have set : (s.results id).isSome := set
    simp [unset c id parked] at set
  · exact fun c id sleeps => absurd sleeps (nobody c id)

/-- The only ways to the two points and the only notifications, by cases on the move. -/
theorem WakeInvariant.move (inv : WakeInvariant s) (sim : SimulationInvariant s)
    (move : Move vp s label after) (allowed : simulationGuard s label)
    (first : NotifyAfterSleep s label)
    : WakeInvariant after := by
  cases move with
  | call c op pc =>
      rcases call_cases s c op pc with ⟨_, same⟩ | ⟨_, _, _, same⟩ <;> rw [same]
      · exact inv.client (by simp) rfl rfl rfl rfl
      · exact inv.client (by cases op <;> simp [Operation.withoutTask]) rfl rfl rfl rfl
  | pushTask c op => exact inv.client (by cases op <;> simp) rfl rfl rfl rfl
  | notifyTask c op id =>
      rcases notifyTask_worker s c op id with ⟨asleep, woken⟩ | ⟨_, same⟩
      · exact inv.client (by cases op <;> simp) rfl (by rw [woken, asleep]; rfl)
          (by rw [woken, asleep]; rfl) rfl
      · exact inv.client (by cases op <;> simp) rfl (by rw [same]) (by rw [same]) rfl
  | finish c op id value =>
      obtain ⟨counts, returned, same⟩ := finish_eq s c op id value
      rw [same]
      exact inv.client (by cases op <;> simp [Operation.next]) rfl rfl rfl rfl
  | setSimStarted | leaveLoop | stayInLoop | lockMemtask | testTrue | continueLoop | access
  | answer | clearSimStarted | joined =>
      exact inv.client (by simp) rfl rfl rfl rfl
  | spuriousClient c id pc => exact inv.client (by simp [pc]) rfl rfl rfl rfl
  | testFalse c id pc empty unset => exact inv.testFalse empty unset
  | sleepMemtask c id pc => exact inv.sleepMemtask pc
  | takeMemtask c id memtask rest pc queued => exact inv.takeMemtask queued
  | busThrows c => exact absurd allowed.1 id
  | pushMemtask _ task request next pc free =>
      exact .pushMemtask sim.completing.core.locks free
  | setValue _ task value next pc => exact inv.setValue sim.completing pc
  | notifyHandler wake task next pc _ notified =>
      exact inv.notify sim notified (fun c id parks => first wake task next c id rfl pc parks)
  | notifyMem _ task request id next pc _ notified =>
      refine inv.notify sim notified (fun c ticket parks => ?_)
      have finishes := (inv.parking c ticket parks).2
      rw [pc] at finishes
      simpa [WorkerPc.finishes] using finishes
  | spuriousWorker pc | lock _ pc | workerTestTrue _ pc | workerTestFalse _ pc | sleep _ pc
  | takeTask _ _ _ pc | exit _ pc | dispatch _ _ pc | handled _ _ pc | filterCallback _ _ _ _ pc
  | dropCallback _ _ _ _ pc | beginCallback _ _ _ _ pc | enter _ _ _ _ pc | leave _ _ _ _ _ pc
  | storeCpu _ _ _ _ pc | storeCycles _ _ _ _ pc | badVariantAccess _ _ _ pc
  | leaveCallback _ _ _ _ _ _ pc | brokenPromise _ _ _ _ _ pc =>
      exact inv.worker (by rw [pc]; rfl) rfl rfl

/-- No client sleeps past its wake-up when every notification is issued before a predicate or
after the sleep.
-/
theorem WakeInvariant.not_lost (inv : WakeInvariant s) : ¬ LostWakeUp s := by
  rintro ⟨c, id, asleep, ready, silent⟩
  have := inv.sleeping c id asleep ready
  simp [silent] at this

/-- A client inside `simulate` is blocked only while it sleeps, since nobody else holds
`memtask_mutex`.
-/
theorem SimulationInvariant.asleep_of_blocked (inv : SimulationInvariant s) {c : ClientId}
    (inside : (s.client c).inSimulate = true) (blocked : s.clientStep vp c = none)
    : ∃ id, s.client c = .asleep id := by
  cases pc : s.client c <;> simp only [pc, ClientPc.inSimulate, Bool.false_eq_true] at inside <;>
    simp only [State.clientStep, pc, reduceCtorEq] at blocked
  case asleep id => exact ⟨id, rfl⟩
  case testDone => split at blocked <;> contradiction
  case testMemtask => split at blocked <;> contradiction
  case lockMemtask id =>
    split at blocked
    · next held =>
        obtain ⟨d, locks⟩ := inv.completing.core.locks.held.mp held
        have same := inv.flags.single d c (ClientPc.simulates_of_locksMemtask locks)
          (by rw [pc]; rfl)
        simp [same, pc, ClientPc.locksMemtask] at locks
    · contradiction

/-- The client and the worker are never both blocked: a sleeping client has an unanswered task
and nothing queued, so the worker works on that task, or is about to.
-/
theorem WakeInvariant.not_bothBlocked (inv : WakeInvariant s) (sim : SimulationInvariant s)
    : ¬ BothBlocked vp s := by
  rintro ⟨_, c, inside, blocked, stuck, silent⟩
  obtain ⟨id, asleep⟩ := sim.asleep_of_blocked inside blocked
  have simulating : (s.client c).simulates = true := by rw [asleep]; rfl
  have unready : ¬ s.ready id := by
    intro ready
    have notifies := inv.sleeping c id asleep ready
    cases sim.completing.worker_blocked (stuck 0) <;> simp_all [WorkerPc.notifies, WorkerPc.finishes]
  simp only [State.ready, not_or, ne_eq, Decidable.not_not, Option.not_isSome_iff_eq_none]
    at unready
  obtain ⟨empty, unset⟩ := unready
  obtain ⟨staying, awake⟩ := sim.completing.awaited (by rw [asleep]; rfl) unset
  cases sim.completing.worker_blocked (stuck 0) with
  | asleep pc =>
      obtain ⟨d, ticket, posted⟩ := awake pc
      exact silent d ticket posted
  | exited pc => exact staying pc
  | mutex task request next pc held =>
      obtain ⟨d, locks⟩ := sim.completing.core.locks.held.mp held
      have same := sim.flags.single d c (ClientPc.simulates_of_locksMemtask locks) simulating
      simp [same, asleep, ClientPc.locksMemtask] at locks
  | answer task request ticket next pc unanswered =>
      cases sim.completing.core.access.phase with
      | quiet pending => simp [pc, WorkerPc.pending] at pending
      | queued _ _ _ queue => simp [empty] at queue
      | served _ _ d _ _ serving =>
          have same := sim.flags.single d c (ClientPc.simulates_of_serving serving) simulating
          simp [same, asleep, ClientPc.serving] at serving
      | answered _ found pending _ _ set =>
          simp only [pc, WorkerPc.pending, Option.some.injEq, Prod.mk.injEq] at pending
          simp [← pending.2, unanswered] at set

/-- A notification in the window is lost: the client then falls asleep for good. -/
theorem SimulationInvariant.loses (inv : SimulationInvariant s) {wake : Nat} {task : PythonTask}
    {next : Unit → Script π} {c : ClientId} {id : Nat}
    (pc : s.worker = .handler task (.ask .notifyMemtask next))
    (parks : s.client c = .sleepMemtask id) (set : (s.results id).isSome)
    : ∃ lost, (coreSystem vp).run s [.worker wake, .client c] = some lost ∧ LostWakeUp lost := by
  have nobody : s.memtaskCv = [] := by
    refine List.eq_nil_iff_forall_not_mem.mpr (fun d member => ?_)
    have asleep := (inv.completing.core.locks.sleepers d).mp member
    have same := inv.flags.single d c (ClientPc.simulates_of_sleeps asleep) (by rw [parks]; rfl)
    simp [same, parks, ClientPc.sleeps] at asleep
  have coherent := inv.completing.core.channel.worker.coherent
  rw [pc] at coherent
  have done := coherent.notified.2.1
  refine ⟨{ s with worker := .handler task (next ()) }.sleepMemtask c id, ?_, ?_⟩
  · simp [Transition.System.run, coreSystem, State.step, State.aborted, State.threadStep,
      State.workerStep, pc, State.runInstr, State.notifyMemtask, nobody, State.clientStep, parks]
  · refine ⟨c, id, by simp [State.sleepMemtask], Or.inr set, ?_⟩
    simp [State.sleepMemtask, done, Script.done, WorkerPc.notifies, WorkerPc.finishes]

-----------------------------------------------------------------------------------------
-- Runs with a throwing bus access
-----------------------------------------------------------------------------------------

/-- A client that found its promise pending at the loop test, up to the next test. -/
def ClientPc.looping : ClientPc → Option Nat
  | .lockMemtask id | .testMemtask id | .sleepMemtask id | .asleep id | .takeMemtask id => some id
  | _ => none

/-- A client inside the loop simulates. -/
theorem ClientPc.simulates_of_looping {pc : ClientPc} {id : Nat} (looping : pc.looping = some id)
    : pc.simulates = true := by
  cases pc <;> first | rfl | cases looping

/-- A bus access has thrown, and no client inside the loop has its promise set. -/
structure ThrownInvariant (s : State π β) : Prop where
  thrown : Thrown s
  pending : ∀ c id, (s.client c).looping = some id → s.results id = none

/-- The exception leaves the one simulation, so nobody is inside the loop. -/
theorem SimulationInvariant.throws (vp : Platform π β) (inv : SimulationInvariant s) {c : ClientId}
    {id : Nat} {memtask : MemAccess} (serves : s.client c = .access id memtask)
    : ThrownInvariant (s.busThrows c id memtask) where
  thrown := .busThrows vp inv.completing.core serves
  pending := by
    intro d ticket looping
    by_cases same : d = c
    · simp [State.busThrows, same, ClientPc.looping] at looping
    · simp only [State.busThrows, Function.update_of_ne same] at looping
      exact absurd (inv.flags.single d c (ClientPc.simulates_of_looping looping)
        (by rw [serves]; rfl)) same

/-- A client enters the loop only with its promise pending, by cases on the move. -/
theorem Move.looping (move : Move vp s label after) {c : ClientId} {id : Nat}
    (looping : (after.client c).looping = some id)
    : (s.client c).looping = some id ∨ s.results id = none := by
  have still {d : ClientId} {pc : ClientPc}
      (stays : pc.looping = none ∨ pc.looping = (s.client d).looping)
      (later : (Function.update s.client d pc c).looping = some id)
      : (s.client c).looping = some id := by
    by_cases mine : c = d
    · rw [mine, Function.update_self] at later
      rcases stays with outside | same
      · simp [outside] at later
      · rw [mine, ← same, later]
    · rwa [Function.update_of_ne mine] at later
  cases move with
  | call d op pc =>
      obtain ⟨pc', next, _, _, _, client⟩ := call_started s op pc
      rw [client] at looping
      refine Or.inl (still (Or.inl ?_) looping)
      rcases next with ⟨_, rfl⟩ | ⟨_, rfl⟩
      · rfl
      · cases op <;> rfl
  | pushTask d op | notifyTask d op =>
      exact Or.inl (still (by cases op <;> exact Or.inl rfl) looping)
  | finish d op ticket value =>
      obtain ⟨counts, returned, same⟩ := finish_eq s d op ticket value
      rw [same] at looping
      exact Or.inl (still (by cases op <;> exact Or.inl rfl) looping)
  | stayInLoop d ticket pc unset =>
      by_cases mine : c = d
      · obtain rfl : ticket = id := by simpa [State.goto, mine, ClientPc.looping] using looping
        exact Or.inr unset
      · simp only [State.goto, Function.update_of_ne mine] at looping
        exact Or.inl looping
  | setSimStarted | leaveLoop | takeMemtask | continueLoop | access | answer | clearSimStarted
  | joined | busThrows =>
      exact Or.inl (still (Or.inl rfl) looping)
  | lockMemtask _ _ pc | testTrue _ _ pc | testFalse _ _ pc | sleepMemtask _ _ pc =>
      exact Or.inl (still (Or.inr (by rw [pc]; rfl)) looping)
  | spuriousClient d ticket pc =>
      exact Or.inl (still (Or.inr (by simp only [pc]; rfl)) looping)
  | notifyHandler _ _ _ _ _ notified | notifyMem _ _ _ _ _ _ _ notified =>
      obtain ⟨cv, client, rfl, woken⟩ := notifyMemtask_frame notified
      have looping : (client c).looping = some id := looping
      rcases woken c with same | ⟨ticket, asleep, lock⟩
      · exact Or.inl (same ▸ looping)
      · rw [lock] at looping
        exact Or.inl (asleep ▸ looping)
  | _ => exact Or.inl looping

/-- After an exception no promise is set any more, so whoever is inside the loop has its promise
pending.
-/
theorem ThrownInvariant.move (inv : ThrownInvariant s) (move : Move vp s label after)
    : ThrownInvariant after where
  thrown := inv.thrown.move move
  pending := by
    intro c id looping
    rw [move.results_of_doomed inv.thrown.doomed]
    rcases move.looping looping with before | unset
    · exact inv.pending c id before
    · exact unset

/-- After an exception nobody sleeps past its wake-up: there is nothing to wake up for. -/
theorem ThrownInvariant.not_lost (inv : ThrownInvariant s) : ¬ LostWakeUp s := by
  rintro ⟨c, id, asleep, ready, _⟩
  rcases ready with queued | set
  · exact queued inv.thrown.quiet.1
  · simp [inv.pending c id (by rw [asleep]; rfl)] at set

/-- After an exception the worker is not blocked: it is about to abort the process. -/
theorem ThrownInvariant.not_bothBlocked (inv : ThrownInvariant s) : ¬ BothBlocked vp s := by
  rintro ⟨running, _, _, _, stuck, _⟩
  obtain ⟨after, stepped⟩ := inv.thrown.worker_enabled vp running
  simp [stuck 0] at stepped

/-- Every such run keeps the invariants of its simulation until a bus access throws, and from then
on nobody inside the loop has its promise set.
-/
theorem wakes_or_thrown {py : π} {bus : β}
    (reached : (coreSystem vp).Reaches wakingGuard (State.initial py bus) s)
    : SimulationInvariant s ∧ WakeInvariant s ∨ ThrownInvariant s := by
  have kept (before after : State π β)
      (inv : SimulationInvariant before ∧ WakeInvariant before ∨ ThrownInvariant before)
      (moved : (coreSystem vp).Moves wakingGuard before after)
      : SimulationInvariant after ∧ WakeInvariant after ∨ ThrownInvariant after := by
    obtain ⟨label, ⟨lifetime, one, first⟩, stepped⟩ := moved
    have move := step_move stepped
    rcases inv with ⟨sim, wakes⟩ | thrown
    · rcases move.throws_or_completes with ⟨c, id, memtask, serves, rfl⟩ | completes
      · exact Or.inr (sim.throws vp serves)
      · have allowed : simulationGuard before label :=
          ⟨completingGuard_of_lifetime before label lifetime completes, one⟩
        exact Or.inl ⟨sim.moves (.of_step allowed stepped), wakes.move sim move allowed first⟩
    · exact Or.inr (thrown.move move)
  have start : WakeInvariant (State.initial py bus) := by
    constructor <;> simp [State.initial]
  exact reached.invariant kept (Or.inl ⟨.initial py bus, start⟩)

/-- In every run with one simulation at a time in which the last notification of a handler
never falls between the false predicate and the sleep of a client whose promise is set, no
wake-up is lost and `simulate` and the worker are never both blocked. Bus accesses may throw.
-/
theorem simulation_wakes (vp : Platform π β) (py : π) (bus : β) {s : State π β}
    (reached : (coreSystem vp).Reaches wakingGuard (State.initial py bus) s)
    : ¬ LostWakeUp s ∧ ¬ BothBlocked vp s := by
  rcases wakes_or_thrown reached with ⟨sim, wakes⟩ | thrown
  · exact ⟨wakes.not_lost, wakes.not_bothBlocked sim⟩
  · exact ⟨thrown.not_lost, thrown.not_bothBlocked⟩

/-- A simulation up to the client's false predicate. -/
def parkedLabels : List Label :=
  constructionLabels ++ [.call 0 (.simulate 1)] ++ List.replicate 6 (.client 0)

/-- The check of sequential callers whose run stops short of the last notification. -/
def unfinishedCheck (clients : Nat) (s : State π β) (label : Label) : Bool :=
  sequentialCheck clients s label && !s.worker.finishes

/-- Witness: a sleeping client has its promise set, and the notification for it is to come. -/
theorem simulation_wakes_asleep
    : ∃ s : State Unit Unit,
        s.client 0 = .asleep 2
        ∧ s.ready 2
        ∧ ¬ LostWakeUp s ∧ ¬ BothBlocked (scriptedPlatform (some 1) []) s := by
  have ran
      : ((coreSystem (scriptedPlatform (some 1) [])).runChecked (unfinishedCheck 1)
          (State.initial () ())
          (parkedLabels ++ [.client 0] ++ List.replicate 10 (.worker 0))).map
            (fun s => (s.client 0, s.results 2))
        = some (.asleep 2, some 0) := by
    decide
  obtain ⟨s, executed, same⟩ := Option.map_eq_some_iff.mp ran
  simp only [Prod.mk.injEq] at same
  have sound (before : State Unit Unit) (label : Label) (unused : before.Unused 1)
      (checked : unfinishedCheck 1 before label = true)
      : wakingGuard before label := by
    obtain ⟨sequential, unfinished⟩ := Bool.and_eq_true_iff.mp checked
    have allowed := simulationGuard_of_sequential _ _ (sequentialCheck_sound _ _ unused sequential)
    refine ⟨lifetimeGuard_of_completing _ _ allowed.1, allowed.2, ?_⟩
    intro wake task next c id _ pc
    simp [pc, WorkerPc.finishes] at unfinished
  have kept (before : State Unit Unit) (label : Label) (after : State Unit Unit)
      (unused : before.Unused 1) (checked : unfinishedCheck 1 before label = true)
      (stepped : (coreSystem (scriptedPlatform (some 1) [])).step before label = some after)
      : after.Unused 1 :=
    sequentialCheck_unused before label after unused (Bool.and_eq_true_iff.mp checked).1 stepped
  obtain ⟨run, admitted, _⟩ :=
    Transition.System.runChecked_run sound kept (fun _ _ => rfl) executed
  exact ⟨s, same.1, Or.inr (by simp [same.2]),
    simulation_wakes _ () () (Transition.System.run_reaches run admitted)⟩

/-- The handler sets the promise and notifies between the client's false predicate and its
sleep: the client sleeps for good, and so does the worker.
-/
theorem simulation_losesWakeUp
    : ∃ s : State Unit Unit,
        (coreSystem (scriptedPlatform (some 1) [])).Reaches sequentialGuard
          (State.initial () ()) s
        ∧ LostWakeUp s ∧ BothBlocked (scriptedPlatform (some 1) []) s := by
  have ran
      : ((coreSystem (scriptedPlatform (some 1) [])).runChecked (sequentialCheck 1)
          (State.initial () ())
          (parkedLabels ++ List.replicate 11 (.worker 0) ++ [.client 0]
            ++ List.replicate 4 (.worker 0))).map
              (fun s => (s.client 0, s.results 2, s.worker.phase s.results))
        = some (.asleep 2, some 0, .asleep) := by
    decide
  obtain ⟨s, executed, same⟩ := Option.map_eq_some_iff.mp ran
  simp only [Prod.mk.injEq] at same
  obtain ⟨asleep, set, resting⟩ := same
  obtain ⟨reached, unused⟩ := sequential_reaches executed
  have rests : s.worker = .asleep := WorkerPc.asleep_of_phase resting
  refine ⟨s, reached, ⟨0, 2, asleep, Or.inr (by simp [set]), by rw [rests]; rfl⟩, ?_⟩
  refine ⟨by rw [State.aborted, rests], 0, by rw [asleep]; rfl,
    by simp only [State.clientStep, asleep], fun wake => by simp only [State.workerStep, rests], ?_⟩
  intro c id posted
  cases c with
  | zero => simp [asleep, ClientPc.phase] at posted
  | succ earlier =>
      simp [unused (earlier + 1) (Nat.succ_le_succ (Nat.zero_le earlier)), ClientPc.phase]
        at posted

end VcmlPydrofoil
