import VcmlPydrofoil.MemoryChannel.Progress

/-! From a throwing bus access to the end of the process. The worker with the broken promise
still notifies and then asks for its answer; that aborts the process, and until then nothing
blocks it.
-/

namespace VcmlPydrofoil

open Interaction (Tree)

variable {π β : Type} {vp : Platform π β} {s after : State π β} {label : Label}

/-- Some bus access has thrown. -/
structure Thrown (s : State π β) : Prop where
  core : CoreInvariant s
  abandoned : s.log.abandoned ≠ []

/-- The exception has doomed the worker. -/
theorem Thrown.doomed (thrown : Thrown s) : s.worker.Doomed s.answers :=
  thrown.core.exceptions.doomed thrown.abandoned

/-- An exception is not forgotten. -/
theorem Thrown.move (thrown : Thrown s) (move : Move vp s label after) : Thrown after where
  core := thrown.core.move move
  abandoned := by
    rcases move.throws_or_completes with ⟨c, id, memtask, _, rfl⟩ | completes
    · simp [State.busThrows]
    · rw [move.abandoned completes]
      exact thrown.abandoned

/-- The exception of an access that is being served. -/
theorem Thrown.busThrows (vp : Platform π β) (core : CoreInvariant s) {c : ClientId} {id : Nat}
    {memtask : MemAccess} (serves : s.client c = .access id memtask)
    : Thrown (s.busThrows c id memtask) where
  core := core.move (show Move vp s _ _ from .busThrows c id memtask serves)
  abandoned := by simp [State.busThrows]

/-- An access that is being served may throw: the process runs, since the worker waits. -/
theorem CoreInvariant.busThrows_step (vp : Platform π β) (core : CoreInvariant s) {c : ClientId}
    {id : Nat} {memtask : MemAccess} (serves : s.client c = .access id memtask)
    : (coreSystem vp).step s (.busThrows c) = some (s.busThrows c id memtask) := by
  have running : s.aborted = false := by
    obtain ⟨_, _, pending, _⟩ :=
      core.access.phase.of_serving (show (s.client c).serving = some memtask by rw [serves]; rfl)
    cases pc : s.worker <;> simp_all [State.aborted, WorkerPc.pending]
  exact (step_eq running _).trans (by simp only [State.threadStep, serves])

/-- A doomed worker sets no promise, by cases on the move. -/
theorem Move.results_of_doomed (move : Move vp s label after)
    (doomed : s.worker.Doomed s.answers)
    : after.results = s.results := by
  cases move with
  | call c op pc => rcases call_cases s c op pc with ⟨_, same⟩ | ⟨_, _, _, same⟩ <;> rw [same]
  | finish c op id value =>
      obtain ⟨counts, returned, same⟩ := finish_eq s c op id value
      rw [same]
  | setValue _ task value next pc =>
      exact absurd doomed (WorkerPc.not_doomed (by rw [pc]; rfl) (by simp [pc]))
  | notifyHandler _ _ _ _ _ notified | notifyMem _ _ _ _ _ _ _ notified =>
      obtain ⟨cv, client, rfl, _⟩ := notifyMemtask_frame notified
      rfl
  | _ => rfl

/-- Nothing is queued and nobody serves an access once a bus access has thrown. -/
theorem Thrown.quiet (thrown : Thrown s)
    : s.memtaskQueue = [] ∧ ∀ c, (s.client c).serving = none := by
  rcases thrown.doomed with ⟨task, ended⟩ | ⟨request, id, pending, broken⟩
  · exact thrown.core.access.phase.of_idle (by rw [ended]; rfl)
  · exact thrown.core.access.phase.of_answered pending (by simp [broken])

-----------------------------------------------------------------------------------------
-- The last steps of the worker
-----------------------------------------------------------------------------------------

/-- A step of the worker. -/
def Label.ofWorker : Label → Bool
  | .worker _ => true
  | _ => false

/-- The steps of a worker from the post of an access to the look at its answer. -/
def WorkerPc.remaining : WorkerPc π → Nat
  | .notifyMem _ _ _ _ => 2
  | .getAnswer _ _ _ _ => 1
  | _ => 0

/-- No worker has more than the notification and the look at the answer to go. -/
theorem WorkerPc.remaining_le_two (pc : WorkerPc π) : pc.remaining ≤ 2 := by
  cases pc <;> simp [WorkerPc.remaining]

/-- A doomed worker spends one of its last steps, and nobody else moves it, by cases on the
move.
-/
theorem Move.remaining_of_doomed (move : Move vp s label after)
    (doomed : s.worker.Doomed s.answers)
    : after.worker.remaining + (if label.ofWorker then 1 else 0) = s.worker.remaining := by
  have absurdly {pc : WorkerPc π} (here : s.worker = pc) (idle : pc.pending = none)
      (running : ∀ task, pc ≠ .terminated task)
      : False :=
    WorkerPc.not_doomed (here ▸ idle) (here ▸ running) doomed
  cases move with
  | call c op pc =>
      rcases call_cases s c op pc with ⟨_, same⟩ | ⟨_, _, _, same⟩ <;> rw [same] <;> rfl
  | notifyTask c op id =>
      rcases notifyTask_worker s c op id with ⟨asleep, _⟩ | ⟨_, same⟩
      · exact (absurdly asleep rfl (by simp)).elim
      · rw [same]
        rfl
  | finish c op id value =>
      obtain ⟨counts, returned, same⟩ := finish_eq s c op id value
      rw [same]
      rfl
  | notifyMem _ _ _ _ _ pc | brokenPromise _ _ _ _ _ pc =>
      rw [pc]
      rfl
  | leaveCallback _ task request id next success pc answered =>
      rcases doomed with ⟨other, ended⟩ | ⟨found, ticket, pending, broken⟩
      · simp [pc] at ended
      · simp only [pc, WorkerPc.pending, Option.some.injEq, Prod.mk.injEq] at pending
        simp [← pending.2, answered] at broken
  | notifyHandler _ _ _ pc | spuriousWorker pc | lock _ pc | workerTestTrue _ pc
  | workerTestFalse _ pc | sleep _ pc | takeTask _ _ _ pc | exit _ pc | dispatch _ _ pc
  | handled _ _ pc | filterCallback _ _ _ _ pc | dropCallback _ _ _ _ pc
  | beginCallback _ _ _ _ pc | enter _ _ _ _ pc | leave _ _ _ _ _ pc | storeCpu _ _ _ _ pc
  | storeCycles _ _ _ _ pc | setValue _ _ _ _ pc | pushMemtask _ _ _ _ pc
  | badVariantAccess _ _ _ pc =>
      exact (absurdly pc rfl (by simp)).elim
  | _ => rfl

/-- After an exception the worker takes no more than its last steps, by induction on the labels. -/
theorem Thrown.run {labels : List Label} {later : State π β} (thrown : Thrown s)
    (ran : (coreSystem vp).run s labels = some later)
    : Thrown later
      ∧ later.worker.remaining + labels.countP Label.ofWorker = s.worker.remaining := by
  induction labels generalizing s with
  | nil =>
      obtain rfl : s = later := Option.some.inj ran
      exact ⟨thrown, rfl⟩
  | cons label rest ih =>
      obtain ⟨next, stepped, others⟩ := Option.bind_eq_some_iff.mp ran
      have move := step_move stepped
      have spent := move.remaining_of_doomed thrown.doomed
      obtain ⟨still, left⟩ := ih (thrown.move move) others
      refine ⟨still, ?_⟩
      rw [List.countP_cons]
      omega

/-- Until the process is aborted, nothing blocks the doomed worker. -/
theorem Thrown.worker_enabled (vp : Platform π β) (thrown : Thrown s) (running : s.aborted = false)
    : ∃ after, s.workerStep vp 0 = some after := by
  rcases thrown.doomed with ⟨task, ended⟩ | ⟨request, id, pending, broken⟩
  · simp [State.aborted, ended] at running
  · cases pc : s.worker with
    | notifyMem task found ticket next =>
        obtain ⟨after, notified⟩ := notifyMemtask_enabled s
        exact ⟨_, by simp only [State.workerStep, pc, notified, Option.map_some]; rfl⟩
    | getAnswer task found ticket next =>
        simp only [pc, WorkerPc.pending, Option.some.injEq, Prod.mk.injEq] at pending
        exact ⟨{ s with worker := .terminated task }, by
          simp only [State.workerStep, pc, pending.2, broken]⟩
    | _ => simp [pc, WorkerPc.pending] at pending

/-- After an exception the worker has at most two steps left, and until the process is aborted
nothing blocks it.
-/
theorem Thrown.aborts {labels : List Label} {later : State π β} (thrown : Thrown s)
    (ran : (coreSystem vp).run s labels = some later)
    : labels.countP Label.ofWorker ≤ 2
      ∧ (later.aborted = true ∨ ∃ next, (coreSystem vp).step later (.worker 0) = some next) := by
  obtain ⟨still, spent⟩ := thrown.run ran
  have bound := s.worker.remaining_le_two
  refine ⟨by omega, ?_⟩
  cases running : later.aborted with
  | true => exact Or.inl rfl
  | false =>
      obtain ⟨next, stepped⟩ := still.worker_enabled vp running
      exact Or.inr ⟨next, worker_step stepped⟩

end VcmlPydrofoil
