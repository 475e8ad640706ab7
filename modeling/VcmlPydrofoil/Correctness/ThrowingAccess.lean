import VcmlPydrofoil.Correctness.CircularWait
import VcmlPydrofoil.MemoryChannel.Aborts

/-! A bus access that throws: the exception leaves `simulate` with the promise of the access
broken and `sim_started` set. No task is answered any more, and as soon as the worker looks at
the broken promise, the process is aborted.
-/

namespace VcmlPydrofoil

open Interaction (Tree)

variable {π β : Type} {vp : Platform π β} {s after : State π β} {label : Label}

/-- Some continuation lets the operation return when it is called in this state. -/
def CanReturn (vp : Platform π β) (s : State π β) (c : ClientId) (op : Operation) : Prop :=
  ∃ later, (coreSystem vp).Reaches (fun _ _ => True) (s.call c op) later ∧ later.client c = .idle

/-- A state that later operations can use: the worker has a failure for its access, no access
and no simulation is left over, and the operations that follow return.
-/
structure Restored (vp : Platform π β) (memtask : MemAccess) (s : State π β) : Prop where
  answered : s.answers memtask.result = some (.value false)
  emptied : s.memtaskQueue = []
  released
    : ∀ entry ∈ s.log.posted, entry.2.pyFunct = .simulate → (s.results entry.2.result).isSome
  cleared : s.simStarted = false
  returns
    : ∀ c,
        s.client c = .idle
        → ∀ op ∈ [.cycleCount, .readRegDbg 0 8, .destruct], CanReturn vp s c op

/-- What the exception leaves behind: of the access only the queue entry is gone. The worker has
at most two more steps to take, the last of which aborts the process, and nothing blocks it on
the way; until then its task is not answered, and what needs the worker does not return.
-/
structure LeftBehind (vp : Platform π β) (memtask : MemAccess) (task : PythonTask)
    (s : State π β)
    : Prop where
  broken : s.answers memtask.result = some .broken
  emptied : s.memtaskQueue = []
  started : s.simStarted = true
  handling : s.worker.callbackTask = some task
  aborts
    : ∀ labels later,
        (coreSystem vp).run s labels = some later
        → labels.countP Label.ofWorker ≤ 2
          ∧ (later.aborted = true ∨ ∃ next, (coreSystem vp).step later (.worker 0) = some next)
  unanswered
    : ∀ later, (coreSystem vp).Reaches (fun _ _ => True) s later → later.results task.result = none
  stuck
    : ∀ c op, s.client c = .idle → s.posts op = true ∨ op = .destruct → ¬ CanReturn vp s c op

-----------------------------------------------------------------------------------------
-- After an exception
-----------------------------------------------------------------------------------------

/-- A client inside an operation that needs an answer of the worker, or its end. -/
def ClientPc.Waits (results : Nat → Option (BitVec 64)) (pc : ClientPc) : Prop :=
  (∃ op, pc = .push op) ∨ (∃ id, pc.phase.ticket? = some id ∧ results id = none) ∨ pc = .joinWorker

/-- A client that waits is inside an operation. -/
theorem ClientPc.Waits.busy {results : Nat → Option (BitVec 64)} {pc : ClientPc}
    (waits : pc.Waits results)
    : pc ≠ .idle := by
  rintro rfl
  rcases waits with ⟨op, push⟩ | ⟨id, ticket, _⟩ | join
  · cases push
  · cases ticket
  · cases join

/-- A client that waits with a ticket has no answer yet. -/
theorem ClientPc.Waits.unset {results : Nat → Option (BitVec 64)} {pc : ClientPc} {id : Nat}
    (waits : pc.Waits results) (ticket : pc.phase.ticket? = some id)
    : results id = none := by
  rcases waits with ⟨op, rfl⟩ | ⟨other, same, unset⟩ | rfl
  · cases ticket
  · exact Option.some.inj (same.symm.trans ticket) ▸ unset
  · cases ticket

/-- After an exception a client that waits goes on waiting, by cases on the move: it is never
told its answer, and the worker never exits.
-/
theorem Thrown.waits (thrown : Thrown s) (move : Move vp s label after) {c : ClientId}
    (waits : (s.client c).Waits s.results)
    : (after.client c).Waits s.results := by
  have fresh := thrown.core.unset_next
  have others {d : ClientId} {pc : ClientPc} (next : c = d → pc.Waits s.results)
      : (Function.update s.client d pc c).Waits s.results := by
    by_cases mine : c = d
    · rw [mine, Function.update_self]
      exact next mine
    · rwa [Function.update_of_ne mine]
  have keeps {d : ClientId} {before pc : ClientPc} {id : Nat} (here : s.client d = before)
      (held : before.phase.ticket? = some id) (still : pc.phase.ticket? = some id)
      : (Function.update s.client d pc c).Waits s.results := by
    refine others fun mine => Or.inr (Or.inl ⟨id, still, waits.unset ?_⟩)
    rw [mine, here]
    exact held
  cases move with
  | call d op pc =>
      obtain ⟨pc', _, _, _, _, client⟩ := call_started s op pc
      rw [client]
      exact others fun mine => absurd (mine ▸ pc) waits.busy
  | pushTask d op pc =>
      exact others fun _ => Or.inr (Or.inl ⟨s.nextTask, by cases op <;> rfl, fresh⟩)
  | setSimStarted d cycles id pc => exact keeps pc rfl rfl
  | notifyTask d op id pc => exact keeps pc rfl (by cases op <;> rfl)
  | finish d op id value pc ready =>
      obtain ⟨counts, returned, same⟩ := finish_eq s d op id value
      rw [same]
      refine others fun mine => ?_
      have unset : s.results id = none := waits.unset (by rw [mine, pc]; rfl)
      simp [unset] at ready
  | leaveLoop d id value pc ready =>
      refine others fun mine => ?_
      have unset : s.results id = none := waits.unset (by rw [mine, pc]; rfl)
      simp [unset] at ready
  | stayInLoop _ _ pc | lockMemtask _ _ pc | testTrue _ _ pc | testFalse _ _ pc
  | sleepMemtask _ _ pc | takeMemtask _ _ _ _ pc | continueLoop _ _ pc | access _ _ _ pc
  | answer _ _ _ _ pc =>
      exact keeps pc rfl rfl
  | clearSimStarted d pc =>
      refine others fun mine => ?_
      rcases waits with ⟨op, push⟩ | ⟨id, ticket, _⟩ | join
      · simp [mine, pc] at push
      · simp [mine, pc, ClientPc.phase, RequestServer.ClientPhase.ticket?] at ticket
      · simp [mine, pc] at join
  | joined d pc exited =>
      have busy := thrown.doomed.busy
      simp [exited, WorkerPc.task?] at busy
  | busThrows d id memtask pc =>
      have serving : (s.client d).serving = some memtask := by rw [pc]; rfl
      exact absurd thrown.doomed (thrown.core.access.phase.not_doomed serving)
  | spuriousClient d id pc =>
      have woken : (s.wakeClient d).client = Function.update s.client d (.lockMemtask id) := by
        simp [State.wakeClient, pc]
      rw [woken]
      exact keeps pc rfl rfl
  | notifyHandler _ _ _ _ _ notified | notifyMem _ _ _ _ _ _ _ notified =>
      obtain ⟨cv, client, rfl, woken⟩ := notifyMemtask_frame notified
      show (client c).Waits s.results
      rcases woken c with same | ⟨id, asleep, lock⟩
      · rwa [same]
      · rw [lock]
        exact Or.inr (Or.inl ⟨id, rfl, waits.unset (by rw [asleep]; rfl)⟩)
  | _ => exact waits

/-- What is settled once a bus access has thrown: the promises, and who goes on waiting. -/
structure Settled (s later : State π β) : Prop where
  thrown : Thrown later
  results : later.results = s.results
  waits : ∀ c, (s.client c).Waits s.results → (later.client c).Waits s.results

/-- After an exception no promise is set and no waiting client returns, by induction on the
run.
-/
theorem Thrown.settled {guard : Transition.Guard (State π β) Label} {later : State π β}
    (thrown : Thrown s) (reached : (coreSystem vp).Reaches guard s later)
    : Settled s later := by
  refine reached.invariant ?_ ⟨thrown, rfl, fun _ waits => waits⟩
  rintro before after inv ⟨label, _, stepped⟩
  have move := step_move stepped
  refine ⟨inv.thrown.move move, ?_, fun c first => ?_⟩
  · exact (move.results_of_doomed inv.thrown.doomed).trans inv.results
  · exact inv.results ▸ inv.thrown.waits move (inv.results.symm ▸ inv.waits c first)

/-- After an exception an operation that needs the worker does not return before the process is
aborted.
-/
theorem Thrown.stuck (vp : Platform π β) (thrown : Thrown s) {c : ClientId} {op : Operation}
    (idle : s.client c = .idle) (needs : s.posts op = true ∨ op = .destruct)
    : ¬ CanReturn vp s c op := by
  rintro ⟨later, reached, returned⟩
  have called : Thrown (s.call c op) := thrown.move (show Move vp s _ _ from .call c op idle)
  obtain ⟨pc, next, _, _, results, client⟩ := call_started s op idle
  have waits : ((s.call c op).client c).Waits (s.call c op).results := by
    rw [client, Function.update_self]
    rcases next with ⟨_, rfl⟩ | ⟨refused, rfl⟩
    · exact Or.inl ⟨op, rfl⟩
    · rcases needs with posts | rfl
      · simp [posts] at refused
      · exact Or.inr (Or.inr rfl)
  exact ((called.settled reached).waits c waits).busy returned

-----------------------------------------------------------------------------------------
-- Every exception
-----------------------------------------------------------------------------------------

/-- Until a bus access throws, the flag follows the one simulation. -/
theorem flags_of_oneSimulation {py : π} {bus : β}
    (reached : (coreSystem vp).Reaches OneSimulation (State.initial py bus) s)
    (completed : s.log.abandoned = [])
    : FlagInvariant s := by
  have kept (before after : State π β) (inv : before.log.abandoned = [] → FlagInvariant before)
      (moved : (coreSystem vp).Moves OneSimulation before after)
      : after.log.abandoned = [] → FlagInvariant after := by
    obtain ⟨label, one, stepped⟩ := moved
    intro completed
    obtain ⟨completes, earlier⟩ := (step_move stepped).completes completed
    exact (inv earlier).move (step_move stepped) completes one
  exact reached.invariant kept (fun _ => (SimulationInvariant.initial py bus).flags) completed

/-- One OS thread runs one simulation at a time. -/
theorem oneSimulation_of_thread (s : State π β) (label : Label) (allowed : threadGuard s label)
    : OneSimulation s label := by
  rintro c cycles rfl
  exact allowed.2.2

/-- A throwing bus access never leaves a state that later operations can use. In every run with
one simulation at a time, whatever else its callers, its bus and its plugin do: the promise of
the access is broken, `sim_started` is set, the next two steps of the worker abort the process,
and until then its task is not answered and no operation that needs the worker returns. On one
OS thread that task is the simulation's own.
-/
theorem throwingAccess_neverRestored (vp : Platform π β) (py : π) (bus : β)
    (reached : (coreSystem vp).Reaches OneSimulation (State.initial py bus) s) {c : ClientId}
    {id : Nat} {memtask : MemAccess} (serves : s.client c = .access id memtask)
    (thrown : (coreSystem vp).step s (.busThrows c) = some after)
    : ¬ Restored vp memtask after
      ∧ ∃ task,
          LeftBehind vp memtask task after
          ∧ ((coreSystem vp).Reaches unsuspendedGuard (State.initial py bus) s
            → task.pyFunct = .simulate) := by
  have core : CoreInvariant s := .reaches reached
  have serving : (s.client c).serving = some memtask := by rw [serves]; rfl
  have completed : s.log.abandoned = [] := by
    by_contra earlier
    exact core.access.phase.not_doomed serving (core.exceptions.doomed earlier)
  have started : s.simStarted = true :=
    (flags_of_oneSimulation reached completed).flag.mpr ⟨c, by rw [serves]; rfl⟩
  obtain ⟨request, access, pending, same, queue, _⟩ := core.access.phase.of_serving serving
  obtain ⟨task, busy, unset⟩ := core.channel.worker.coherent.of_pending pending
  have inside : s.worker.callbackTask = some task := by
    cases pc : s.worker <;> simp_all [WorkerPc.pending, WorkerPc.task?, WorkerPc.callbackTask]
  obtain rfl : s.busThrows c id memtask = after := by
    simpa [State.threadStep, serves] using (step_running thrown).2
  have doomed := Thrown.busThrows vp core serves
  have left : LeftBehind vp memtask task (s.busThrows c id memtask) := {
    broken := by simp [State.busThrows]
    emptied := queue
    started := started
    handling := inside
    aborts := fun _ _ ran => doomed.aborts ran
    unanswered := fun later reaches => by
      rw [(doomed.settled reaches).results]
      exact unset
    stuck := fun _ _ => doomed.stuck vp
  }
  refine ⟨fun restored => ?_, task, left, fun single => ?_⟩
  · have cleared := restored.cleared
    rw [left.started] at cleared
    contradiction
  · exact (ThreadInvariant.reaches single (.initial py bus)).callbacks completed task inside

/-- A simulation reaches the bus access of its store, and the worker waits for the answer. -/
theorem suspended_reaches
    : ∃ s : State Unit Unit,
        (coreSystem (scriptedPlatform (some 1) [sampleStore])).Reaches unsuspendedGuard
          (State.initial () ()) s
        ∧ s.client 0 = .access 2 (sampleStore.toMemAccess 0)
        ∧ s.client 1 = .idle
        ∧ s.simStarted = true
        ∧ ∃ task next, s.worker = .getAnswer task sampleStore 0 next := by
  have ran
      : ((coreSystem (scriptedPlatform (some 1) [sampleStore])).runChecked (unsuspendedCheck 2)
          (State.initial () ()) suspendedLabels).map
            (fun s => ((s.client 0, s.client 1, s.simStarted), s.worker.pending,
              s.worker matches .getAnswer _ _ _ _))
        = some ((.access 2 (sampleStore.toMemAccess 0), .idle, true), some (sampleStore, 0),
            true) := by
    decide
  obtain ⟨s, executed, same⟩ := Option.map_eq_some_iff.mp ran
  simp only [Prod.mk.injEq] at same
  obtain ⟨⟨serves, idle, started⟩, pending, getAnswer⟩ := same
  obtain ⟨run, admitted, _⟩ := Transition.System.runChecked_run unsuspendedCheck_sound
    (fun before label after unused checked stepped =>
      threadCheck_unused before label after unused (Bool.and_eq_true_iff.mp checked).1 stepped)
    (fun _ _ => rfl) executed
  refine ⟨s, Transition.System.run_reaches run admitted, serves, idle, started, ?_⟩
  cases pc : s.worker with
  | getAnswer task request id next =>
      obtain ⟨rfl, rfl⟩ : request = sampleStore ∧ id = 0 := by
        simpa [pc, WorkerPc.pending] using pending
      exact ⟨task, next, rfl⟩
  | _ => simp [pc] at getAnswer

/-- Witness: a store that throws leaves the simulation's task with the worker. -/
theorem throwingAccess_store
    : ∃ after task,
        ¬ Restored (scriptedPlatform (some 1) [sampleStore]) (sampleStore.toMemAccess 0) after
        ∧ LeftBehind (scriptedPlatform (some 1) [sampleStore]) (sampleStore.toMemAccess 0) task
          after
        ∧ task.pyFunct = .simulate := by
  obtain ⟨s, reached, serves, _⟩ := suspended_reaches
  have single := reached.mono fun s label allowed => oneSimulation_of_thread s label allowed.1
  have core : CoreInvariant s := .reaches reached
  obtain ⟨never, task, left, mine⟩ :=
    throwingAccess_neverRestored _ () () single serves (core.busThrows_step _ serves)
  exact ⟨_, task, never, left, mine reached⟩

/-- A store that throws out of `simulate` on one OS thread: the promise of the worker is broken,
`sim_started` is set, a register read afterwards does not return, and the next step of the
worker aborts the process, after which no thread takes a step.
-/
theorem throwingAccess_unusable
    : ∃ s after last : State Unit Unit,
        (coreSystem (scriptedPlatform (some 1) [sampleStore])).Reaches threadGuard
          (State.initial () ()) s
        ∧ (coreSystem (scriptedPlatform (some 1) [sampleStore])).step s (.busThrows 0) = some after
        ∧ after.answers 0 = some .broken
        ∧ after.simStarted = true
        ∧ ¬ CanReturn (scriptedPlatform (some 1) [sampleStore]) after 1 (.readRegDbg 0 8)
        ∧ ¬ Restored (scriptedPlatform (some 1) [sampleStore]) (sampleStore.toMemAccess 0) after
        ∧ (coreSystem (scriptedPlatform (some 1) [sampleStore])).step after (.worker 0) = some last
        ∧ ∀ label,
            (coreSystem (scriptedPlatform (some 1) [sampleStore])).step last label = none := by
  obtain ⟨s, reached, serves, idle, started, task, next, waits⟩ := suspended_reaches
  have core : CoreInvariant s := .reaches reached
  have thrown := Thrown.busThrows (scriptedPlatform (some 1) [sampleStore]) core serves
  have still : (s.busThrows 0 2 (sampleStore.toMemAccess 0)).client 1 = .idle := by
    simp [State.busThrows, idle]
  have broken : (s.busThrows 0 2 (sampleStore.toMemAccess 0)).answers 0 = some .broken := by
    simp [State.busThrows]
  have looks
      : (s.busThrows 0 2 (sampleStore.toMemAccess 0)).worker = .getAnswer task sampleStore 0 next :=
    waits
  refine ⟨s, _, { s.busThrows 0 2 (sampleStore.toMemAccess 0) with worker := .terminated task },
    reached.mono fun _ _ allowed => allowed.1, core.busThrows_step _ serves, broken, started,
    thrown.stuck _ still (Or.inl rfl), fun restored => ?_, worker_step ?_, fun _ => rfl⟩
  · have answered := restored.answered
    rw [MemCallback.toMemAccess_result, broken] at answered
    contradiction
  · simp only [State.workerStep, looks, broken]

end VcmlPydrofoil
