import VcmlPydrofoil.Correctness.ThrowingAccess
import VcmlPydrofoil.Plugin.CycleHandlers

/-! The copy of the counter in every run on one OS thread: wherever the worker stands, what is left
of its handler meets the handler's demands, and between simulations the copy agrees with the
counter.
-/

namespace VcmlPydrofoil

open Interaction (Tree)

variable {π χ β : Type} {ext : Pydrofoil χ} {bus : Bus β} {label : Label}

/-- VCML constructs the core and ends its elaboration before a simulation completes. The destructor
is not part of the run.
-/
def Operation.InOrder (completed : List π) : Operation → Prop
  | .construct _ | .endOfElaboration => completed = []
  | .destruct => False
  | _ => True

/-- One OS thread that calls the operations in order, and none with a task while a coroutine is
suspended.
-/
def lifecycleGuard (s : State π β) (label : Label) : Prop :=
  unsuspendedGuard s label ∧ ∀ c op, label = .call c op → op.InOrder s.log.completed

/-- The operation of a client that posts or collects its task. -/
def ClientPc.operation? : ClientPc → Option Operation
  | .push op | .notifyTask op _ | .getResult op _ => some op
  | _ => none

/-- Every operation that is in progress is in order. -/
def OrderInvariant (s : State π β) : Prop :=
  ∀ c op, (s.client c).operation? = some op → op.InOrder s.log.completed

/-- Outside its simulation a client waits for the task of its operation. -/
theorem ClientPc.operation_of_current {pc : ClientPc} {funct : Funct} {id : Nat}
    (current : pc.current = some (funct, id)) (other : funct ≠ .simulate)
    : ∃ op, pc.operation? = some op ∧ op.pyFunct = funct := by
  cases pc with
  | notifyTask op _ | getResult op _ =>
      simp only [ClientPc.current, Option.some.injEq, Prod.mk.injEq] at current
      exact ⟨op, rfl, current.1⟩
  | _ => simp_all [ClientPc.current]

/-- What the order says about the task of an operation. -/
theorem Operation.InOrder.task {completed : List π} {op : Operation}
    (inOrder : op.InOrder completed)
    : (op.pyFunct = .init ∨ op.pyFunct = .setCb → completed = []) ∧ op.pyFunct ≠ .freeCpu := by
  cases op <;> simp_all [Operation.InOrder, Operation.pyFunct]

section Moves

variable {vp : Platform π β} {s after : State π β}

/-- A client goes on with its operation, is called, or goes on to one that is always in order. -/
theorem Move.operation? (move : Move vp s label after) {c : ClientId} {op : Operation}
    (inside : (after.client c).operation? = some op)
    : (s.client c).operation? = some op
      ∨ label = .call c op
      ∨ ∀ completed : List π, op.InOrder completed := by
  have still {d : ClientId} {pc : ClientPc}
      (next : pc.operation? = some op → (s.client d).operation? = some op
        ∨ ∀ completed : List π, op.InOrder completed)
      (later : (Function.update s.client d pc c).operation? = some op)
      : (s.client c).operation? = some op
        ∨ label = .call c op
        ∨ ∀ completed : List π, op.InOrder completed := by
    by_cases same : c = d
    · subst c
      rw [Function.update_self] at later
      exact (next later).imp_right Or.inr
    · rw [Function.update_of_ne same] at later
      exact Or.inl later
  cases move with
  | call d called pc =>
      obtain ⟨pc', next, _, _, _, client⟩ := call_started s called pc
      rw [client] at inside
      by_cases same : c = d
      · subst c
        rw [Function.update_self] at inside
        rcases next with ⟨_, rfl⟩ | ⟨_, rfl⟩
        · obtain rfl := Option.some.inj inside
          exact Or.inr (Or.inl rfl)
        · cases called <;> simp [Operation.withoutTask, ClientPc.operation?] at inside
      · rw [Function.update_of_ne same] at inside
        exact Or.inl inside
  | pushTask d called pc =>
      refine still (fun later => Or.inl ?_) inside
      rw [pc]
      cases called <;> simp_all [ClientPc.operation?]
  | setSimStarted d cycles id pc =>
      refine still (fun later => Or.inr fun completed => ?_) inside
      obtain rfl := Option.some.inj later
      trivial
  | notifyTask d called id pc =>
      refine still (fun later => Or.inl ?_) inside
      rw [pc]
      cases called <;> simp_all [ClientPc.operation?]
  | finish d called id value pc ready =>
      obtain ⟨counts, returned, same⟩ := finish_eq s d called id value
      rw [same] at inside
      refine still (fun later => Or.inr fun completed => ?_) inside
      cases called <;> simp [Operation.next, ClientPc.operation?] at later
      subst op
      trivial
  | leaveLoop | stayInLoop | lockMemtask | testTrue | testFalse | sleepMemtask | takeMemtask
  | continueLoop | access | answer | clearSimStarted | joined | busThrows =>
      exact still (fun later => by cases later) inside
  | spuriousClient d id pc =>
      refine still (fun later => ?_) inside
      simp [pc, ClientPc.operation?] at later
  | notifyHandler _ _ _ _ _ notified | notifyMem _ _ _ _ _ _ _ notified =>
      have same := notifyMemtask_map ClientPc.operation? (fun _ => rfl) notified c
      exact Or.inl (same ▸ inside)
  | _ => exact Or.inl inside

/-- A simulation completes only where its client leaves `simulate`. -/
theorem Move.completed (move : Move vp s label after)
    : after.log.completed = s.log.completed
      ∨ ∃ c, label = .client c ∧ s.client c = .clearSimStarted ∧ after = s.clearSimStarted c := by
  cases move with
  | clearSimStarted c pc => exact Or.inr ⟨c, rfl, pc, rfl⟩
  | call c op pc =>
      rcases call_cases s c op pc with ⟨_, same⟩ | ⟨_, _, _, same⟩ <;> rw [same] <;> exact Or.inl rfl
  | finish c op id value =>
      obtain ⟨counts, returned, same⟩ := finish_eq s c op id value
      rw [same]
      exact Or.inl rfl
  | notifyHandler _ _ _ _ _ notified | notifyMem _ _ _ _ _ _ _ notified =>
      obtain ⟨cv, client, rfl, _⟩ := notifyMemtask_frame notified
      exact Or.inl rfl
  | _ => exact Or.inl rfl

/-- A client with an operation is engaged. -/
theorem ClientPc.engaged_of_operation {pc : ClientPc} {op : Operation}
    (inside : pc.operation? = some op)
    : pc.engaged = true := by
  cases pc <;> first | rfl | simp [ClientPc.operation?] at inside

/-- Operations stay in order: while one is in progress no simulation completes. -/
theorem OrderInvariant.move (inv : OrderInvariant s) (thread : ThreadInvariant s)
    (move : Move vp s label after)
    (called : ∀ c op, label = .call c op → op.InOrder s.log.completed)
    : OrderInvariant after := by
  intro c op inside
  have inOrder : op.InOrder s.log.completed := by
    rcases move.operation? inside with before | call | always
    · exact inv c op before
    · exact called c op call
    · exact always _
  rcases move.completed with same | ⟨d, rfl, clears, rfl⟩
  · rwa [same]
  · rcases move.operation? inside with before | call | always
    · have same := thread.single c d (ClientPc.engaged_of_operation before) (by rw [clears]; rfl)
      rw [same, clears] at before
      cases before
    · cases call
    · exact always _

/-- The worker's task is the one it had, unless it takes one. -/
theorem Move.task (move : Move vp s label after) {task : PythonTask}
    (busy : after.worker.task? = some task)
    : s.worker.task? = some task
      ∨ s.worker = .take
        ∧ ∃ rest,
            after = {
              s with
              taskMutex := false, taskQueue := rest, worker := .dispatch task
              log := { s.log with taken := s.log.taken ++ [task] }
            } := by
  cases move with
  | call c op pc =>
      rcases call_cases s c op pc with ⟨_, same⟩ | ⟨_, _, _, same⟩ <;> rw [same] at busy <;>
        exact Or.inl busy
  | finish c op id value =>
      obtain ⟨counts, returned, same⟩ := finish_eq s c op id value
      rw [same] at busy
      exact Or.inl busy
  | notifyTask c op id =>
      rcases notifyTask_worker s c op id with ⟨_, woken⟩ | ⟨_, same⟩
      · simp [woken, WorkerPc.task?] at busy
      · exact Or.inl (same ▸ busy)
  | takeTask _ taken rest pc =>
      obtain rfl := Option.some.inj busy
      exact Or.inr ⟨pc, rest, rfl⟩
  | spuriousWorker | lock | workerTestTrue | workerTestFalse | sleep | exit | handled => cases busy
  | dispatch _ _ pc | filterCallback _ _ _ _ pc | dropCallback _ _ _ _ pc
  | beginCallback _ _ _ _ pc | enter _ _ _ _ pc | leave _ _ _ _ _ pc | storeCpu _ _ _ _ pc
  | storeCycles _ _ _ _ pc | setValue _ _ _ _ pc | notifyHandler _ _ _ pc | badVariantAccess _ _ _ pc
  | pushMemtask _ _ _ _ pc | notifyMem _ _ _ _ _ pc | leaveCallback _ _ _ _ _ _ pc
  | brokenPromise _ _ _ _ _ pc =>
      rw [pc]
      exact Or.inl busy
  | _ => exact Or.inl busy

/-- A promise that is still to be set was so before. -/
theorem Move.unset (move : Move vp s label after) {id : Nat} (unset : after.results id = none)
    : s.results id = none := by
  cases move with
  | call c op pc =>
      rcases call_cases s c op pc with ⟨_, same⟩ | ⟨_, _, _, same⟩ <;> rw [same] at unset <;>
        exact unset
  | finish c op id value =>
      obtain ⟨counts, returned, same⟩ := finish_eq s c op id value
      rw [same] at unset
      exact unset
  | setValue _ task value next pc =>
      by_cases same : id = task.result
      · simp [same] at unset
      · simpa [same] using unset
  | notifyHandler _ _ _ _ _ notified | notifyMem _ _ _ _ _ _ _ notified =>
      obtain ⟨cv, client, rfl, _⟩ := notifyMemtask_frame notified
      exact unset
  | _ => exact unset

/-- While a task is unanswered, the one engaged coroutine waits for it. -/
theorem ThreadInvariant.alone (inv : ThreadInvariant s) (completed : s.log.abandoned = [])
    {task : PythonTask} (busy : s.worker.task? = some task) (unset : s.results task.result = none)
    {c : ClientId} (engaged : (s.client c).engaged = true)
    : (s.client c).current = some (task.pyFunct, task.result) := by
  obtain ⟨d, current⟩ := inv.core.poster completed busy unset
  rwa [inv.single c d engaged (ClientPc.engaged_of_current current)]

end Moves

-----------------------------------------------------------------------------------------
-- The counter and its copy
-----------------------------------------------------------------------------------------

variable {s after : State (World χ) β}

/-- A simulation has its answer, and its client has not yet left `simulate`. -/
def ClientPc.Done (results : Nat → Option (BitVec 64)) (pc : ClientPc) : Prop :=
  pc = .clearSimStarted ∨ ∃ id, pc.current = some (.simulate, id) ∧ (results id).isSome

/-- A client whose simulation has its answer is engaged. -/
theorem ClientPc.Done.engaged {results : Nat → Option (BitVec 64)} {pc : ClientPc}
    (done : pc.Done results)
    : pc.engaged = true := by
  rcases done with rfl | ⟨id, current, _⟩
  · rfl
  · exact ClientPc.engaged_of_current current

/-- Without an exception: what is left of the handler meets its demands, a client that counts is
told the counter, and outside simulations the copy agrees with the counter.
-/
structure CountsHold (ext : Pydrofoil χ) (s : State (World χ) β) : Prop where
  working
    : ∀ task,
        s.worker.task? = some task
        → s.results task.result = none
        → s.worker.Meets (gluecode ext) (counting s.log.completed) s.locals
  told
    : ∀ c id value,
        (s.client c).current = some (.getCycles, id)
        → s.results id = some value
        → value = reportedCycles (stepsAt s.cpu s.log.completed.getLast?)
  done : ∀ c, (s.client c).Done s.results → CountSettled s.log.completed s.locals
  resting
    : (∀ task, s.worker.task? = some task → (s.results task.result).isSome)
      → (∀ c, ¬ (s.client c).Done s.results)
      → CountReady s.log.completed s.locals

/-- While a task is unanswered, no simulation is done and nobody is told anything. -/
theorem ThreadInvariant.not_done (thread : ThreadInvariant s) (completed : s.log.abandoned = [])
    {task : PythonTask} (busy : s.worker.task? = some task) (unset : s.results task.result = none)
    (c : ClientId)
    : ¬ (s.client c).Done s.results
      ∧ ∀ entry, (s.client c).current = some entry → s.results entry.2 = none := by
  refine ⟨fun done => ?_, fun entry current => ?_⟩
  · have current := thread.alone completed busy unset done.engaged
    rcases done with clears | ⟨id, simulates, set⟩
    · simp [clears, ClientPc.current] at current
    · rw [current] at simulates
      simp only [Option.some.injEq, Prod.mk.injEq] at simulates
      simp [← simulates.2, unset] at set
  · have waits := thread.alone completed busy unset (ClientPc.engaged_of_current current)
    rw [current] at waits
    obtain rfl := Option.some.inj waits
    exact unset

/-- A task that is taken finds the copy in agreement with the counter, so its handler meets its
demands; and every other move meets the demands of a task that it leaves unanswered.
-/
theorem CountsHold.working_move (inv : CountsHold ext s) (order : OrderInvariant s)
    (thread : ThreadInvariant after) (completed : after.log.abandoned = [])
    (move : Move (gluePlatform ext bus) s label after)
    (log : after.log.completed = s.log.completed) (task : PythonTask)
    (busy : after.worker.task? = some task) (unset : after.results task.result = none)
    : after.worker.Meets (gluecode ext) (counting after.log.completed) after.locals := by
  rcases move.task busy with before | ⟨taking, rest, rfl⟩
  · rw [log]
    refine move.meets (inv.working task before (move.unset unset)) fun other taking => ?_
    simp [taking, WorkerPc.task?] at before
  · have ready : CountReady s.log.completed s.locals :=
      inv.resting (fun other same => by simp [taking, WorkerPc.task?] at same)
        fun c => (thread.not_done completed busy unset c).1
    have early : (task.pyFunct = .init ∨ task.pyFunct = .setCb → s.log.completed = [])
        ∧ task.pyFunct ≠ .freeCpu := by
      obtain ⟨c, current⟩ := thread.core.poster completed busy unset
      by_cases simulates : task.pyFunct = .simulate
      · simp [simulates]
      · obtain ⟨op, inside, funct⟩ := ClientPc.operation_of_current current simulates
        exact funct ▸ (order c op inside).task
    exact createHandlers_counting ext ready task early.1 early.2

/-- What the copy depends on. -/
def State.counts (s : State (World χ) β)
    : Locals (World χ) × (Nat → Option (BitVec 64)) × List (World χ) :=
  (s.locals, s.results, s.log.completed)

/-- A move that leaves the counter, the promises and the completed simulations alone, and neither
starts nor ends a simulation that has its answer.
-/
theorem CountsHold.quiet (inv : CountsHold ext s)
    (working
      : ∀ task,
          after.worker.task? = some task
          → after.results task.result = none
          → after.worker.Meets (gluecode ext) (counting after.log.completed) after.locals)
    (same : after.counts = s.counts)
    (tasks
      : (∀ task, after.worker.task? = some task → (s.results task.result).isSome)
        → ∀ task, s.worker.task? = some task → (s.results task.result).isSome)
    (told
      : ∀ c id value,
          (after.client c).current = some (.getCycles, id)
          → s.results id = some value
          → (s.client c).current = some (.getCycles, id))
    (done : (∃ c, (after.client c).Done s.results) ↔ ∃ c, (s.client c).Done s.results)
    : CountsHold ext after := by
  simp only [State.counts, Prod.mk.injEq] at same
  obtain ⟨locals, results, completed⟩ := same
  have cpu : after.cpu = s.cpu := congrArg Locals.cpu locals
  constructor
  case working => exact working
  case told =>
    intro c id value current set
    rw [cpu, completed]
    rw [results] at set
    exact inv.told c id value (told c id value current set) set
  case done =>
    intro c ends
    rw [results] at ends
    obtain ⟨d, before⟩ := done.mp ⟨c, ends⟩
    rw [completed, locals]
    exact inv.done d before
  case resting =>
    intro idle none
    rw [results] at idle none
    rw [completed, locals]
    refine inv.resting (tasks idle) fun c before => ?_
    obtain ⟨d, ends⟩ := done.mpr ⟨c, before⟩
    exact none d ends

/-- A client that moves to where it is told no other count, at the end of a simulation or not as
before.
-/
theorem CountsHold.client (inv : CountsHold ext s)
    (working
      : ∀ task,
          after.worker.task? = some task
          → after.results task.result = none
          → after.worker.Meets (gluecode ext) (counting after.log.completed) after.locals)
    (same : after.counts = s.counts) (worker : after.worker = s.worker) {d : ClientId}
    {pc : ClientPc} (client : after.client = Function.update s.client d pc)
    (told : ∀ id value, pc.current = some (.getCycles, id) → s.results id ≠ some value)
    (done : pc.Done s.results ↔ (s.client d).Done s.results)
    : CountsHold ext after := by
  refine inv.quiet working same (fun idle => worker ▸ idle) ?_ (exists_congr fun c => ?_) <;>
    rw [client]
  · intro c id value current set
    by_cases mine : c = d
    · subst c
      rw [Function.update_self] at current
      exact absurd set (told id value current)
    · rwa [Function.update_of_ne mine] at current
  · by_cases mine : c = d
    · rw [mine, Function.update_self]
      exact done
    · rw [Function.update_of_ne mine]

/-- Two control points that wait for the same task, and of which neither or both are at the end of
`simulate`.
-/
def ClientPc.Alike (one two : ClientPc) : Prop :=
  one.current = two.current ∧ (one = .clearSimStarted ↔ two = .clearSimStarted)

/-- A client that moves between such control points. -/
theorem ClientPc.Alike.update {client : ClientId → ClientPc} {d : ClientId} {pc : ClientPc}
    (alike : pc.Alike (client d)) (c : ClientId)
    : (Function.update client d pc c).Alike (client c) := by
  by_cases same : c = d
  · rw [same, Function.update_self]
    exact alike
  · rw [Function.update_of_ne same]
    exact ⟨rfl, Iff.rfl⟩

/-- A move whose clients stay at such control points. -/
theorem CountsHold.alike (inv : CountsHold ext s)
    (working
      : ∀ task,
          after.worker.task? = some task
          → after.results task.result = none
          → after.worker.Meets (gluecode ext) (counting after.log.completed) after.locals)
    (same : after.counts = s.counts)
    (tasks
      : (∀ task, after.worker.task? = some task → (s.results task.result).isSome)
        → ∀ task, s.worker.task? = some task → (s.results task.result).isSome)
    (clients : ∀ c, (after.client c).Alike (s.client c))
    : CountsHold ext after := by
  refine inv.quiet working same tasks (fun c id value current _ => (clients c).1 ▸ current) ?_
  refine exists_congr fun c => ?_
  unfold ClientPc.Done
  rw [(clients c).1, (clients c).2]

/-- A handler that writes the variables of its unanswered task. -/
theorem CountsHold.writes (ext : Pydrofoil χ) (thread : ThreadInvariant s)
    (calm : s.log.abandoned = []) {task : PythonTask} (busy : s.worker.task? = some task)
    (unset : s.results task.result = none)
    (working
      : ∀ task,
          after.worker.task? = some task
          → after.results task.result = none
          → after.worker.Meets (gluecode ext) (counting after.log.completed) after.locals)
    (clients : (after.client, after.results) = (s.client, s.results))
    (still : after.worker.task? = some task)
    : CountsHold ext after := by
  simp only [Prod.mk.injEq] at clients
  obtain ⟨client, results⟩ := clients
  have never := thread.not_done calm busy unset
  constructor
  case working => exact working
  case told =>
    intro c id value current set
    rw [client] at current
    rw [results] at set
    simp [(never c).2 _ current] at set
  case done =>
    intro c ends
    rw [client, results] at ends
    exact absurd ends (never c).1
  case resting =>
    intro idle
    have answered := idle task still
    simp [results, unset] at answered

/-- A handler that sets its promise as it should. -/
theorem CountsHold.setValue (inv : CountsHold ext s) (thread : ThreadInvariant s)
    (calm : s.log.abandoned = []) {task : PythonTask} {value : BitVec 64}
    {next : Unit → Script (World χ)}
    (pc : s.worker = .handler task (.ask (.setValue value) next))
    : CountsHold ext
        { s with
          worker := .handler task (next ())
          results := Function.update s.results task.result (some value)
          log := { s.log with values := s.log.values ++ [(task.result, value)] } } := by
  have busy : s.worker.task? = some task := by rw [pc]; rfl
  have coherent := thread.core.channel.worker.coherent
  rw [pc] at coherent
  have unset : s.results task.result = none := (coherent.pending (by simp)).1
  have answered : CountAnswered s.log.completed task.pyFunct value s.locals := by
    have meets := inv.working task busy unset
    rw [pc] at meets
    exact meets.1
  have waits {c : ClientId} {entry : Funct × Nat} (current : (s.client c).current = some entry)
      : entry = (task.pyFunct, task.result) := by
    have alone := thread.alone calm busy unset (ClientPc.engaged_of_current current)
    exact Option.some.inj (current.symm.trans alone)
  constructor
  case working =>
    intro other same unanswered
    obtain rfl := Option.some.inj same
    simp at unanswered
  case told =>
    intro c id found current set
    have mine := waits current
    simp only [Prod.mk.injEq] at mine
    obtain ⟨counts, rfl⟩ := mine
    rw [← counts] at answered
    obtain rfl : value = found := by simpa using set
    exact answered.2
  case done =>
    rintro c (clears | ⟨id, current, _⟩)
    · have alone := thread.alone calm busy unset (c := c) (by rw [show s.client c = _ from clears]; rfl)
      simp [show s.client c = _ from clears, ClientPc.current] at alone
    · have mine := waits current
      simp only [Prod.mk.injEq] at mine
      rw [← mine.1] at answered
      exact answered
  case resting =>
    intro _ none
    obtain ⟨c, current⟩ := thread.core.poster calm busy unset
    cases funct : task.pyFunct with
    | simulate =>
        rw [funct] at current
        exact absurd (Or.inr ⟨_, current, by simp⟩) (none c)
    | getCycles =>
        rw [funct] at answered
        exact answered.1
    | _ =>
        rw [funct] at answered
        exact answered

/-- The end of a simulation. -/
theorem CountsHold.clearSimStarted (inv : CountsHold ext s) (thread : ThreadInvariant s)
    (calm : s.log.abandoned = []) {c : ClientId} (pc : s.client c = .clearSimStarted)
    : CountsHold ext (s.clearSimStarted c) := by
  have settled := inv.done c (Or.inl pc)
  have engaged : (s.client c).engaged = true := by rw [pc]; rfl
  have nobody (d : ClientId) : ((s.clearSimStarted c).client d).engaged = false := by
    show (Function.update s.client c .idle d).engaged = false
    by_cases same : d = c
    · rw [same, Function.update_self]
      rfl
    · rw [Function.update_of_ne same]
      by_contra busy
      exact same (thread.single d c (by simpa using busy) engaged)
  constructor
  case working =>
    intro task busy unset
    have current := thread.alone calm busy unset engaged
    simp [pc, ClientPc.current] at current
  case told =>
    intro d id value current
    have busy := ClientPc.engaged_of_current current
    simp [nobody d] at busy
  case done =>
    intro d ends
    have busy := ends.engaged
    simp [nobody d] at busy
  case resting =>
    intro _ _
    refine ⟨settled.fresh, ?_, settled.stored⟩
    show s.py.steps s.cpu = stepsAt s.cpu (s.log.completed ++ [s.py]).getLast?
    rw [List.getLast?_concat]
    rfl

/-- Every move without an exception keeps the copy in agreement, by cases on the move. -/
theorem CountsHold.move (inv : CountsHold ext s) (order : OrderInvariant s)
    (thread : ThreadInvariant s) (thread' : ThreadInvariant after)
    (move : Move (gluePlatform ext bus) s label after) (calm : after.log.abandoned = [])
    : CountsHold ext after := by
  obtain ⟨completes, calm'⟩ := move.completes calm
  have working (log : after.log.completed = s.log.completed) :=
    inv.working_move order thread' calm move log
  have coherent := thread.core.channel.worker.coherent
  have fresh := thread.core.unset_next
  cases move with
  | busThrows c => exact absurd rfl (completes c)
  | call c op pc =>
      rcases call_cases s c op pc with ⟨_, same⟩ | ⟨_, _, _, same⟩ <;> rw [same] at working ⊢ <;>
        refine inv.alike (working rfl) rfl (fun idle => idle) (ClientPc.Alike.update ?_) <;>
        rw [pc]
      · exact ⟨rfl, by simp⟩
      · cases op <;> exact ⟨rfl, by simp [Operation.withoutTask]⟩
  | pushTask c op pc =>
      have waits {funct : Funct} {id : Nat}
          (current : ((s.pushTask c op).client c).current = some (funct, id))
          : s.results id = none := by
        have next : id = s.nextTask := by
          cases op <;> simp_all [State.pushTask, ClientPc.current]
        exact next ▸ fresh
      have mine : (s.pushTask c op).client = Function.update s.client c ((s.pushTask c op).client c) := by
        simp [State.pushTask]
      refine inv.client (working rfl) rfl rfl mine (fun id value current => ?_) ⟨?_, ?_⟩
      · simp [waits current]
      · rintro (clears | ⟨id, current, set⟩)
        · cases op <;> simp [State.pushTask] at clears
        · simp [waits current] at set
      · rw [pc]
        rintro (clears | ⟨id, current, _⟩)
        · cases clears
        · cases current
  | finish c op id value pc ready =>
      obtain ⟨counts, returned, same⟩ := finish_eq s c op id value
      rw [same] at working ⊢
      have ends : op.next.current = none ∧ op.next ≠ .clearSimStarted := by
        cases op <;> exact ⟨rfl, by simp [Operation.next]⟩
      refine inv.client (working rfl) rfl rfl rfl (fun id value current => ?_) ⟨?_, ?_⟩
      · simp [ends.1] at current
      · rintro (clears | ⟨id, current, _⟩)
        · exact absurd clears ends.2
        · simp [ends.1] at current
      · rw [pc]
        rintro (clears | ⟨other, current, _⟩)
        · cases clears
        · simp only [ClientPc.current, Option.some.injEq, Prod.mk.injEq] at current
          cases op <;> simp [Operation.pyFunct] at current
          exact absurd pc ((thread.flags calm').noResult c _ id)
  | leaveLoop c id value pc ready =>
      refine inv.client (working rfl) rfl rfl rfl (fun id value current => by cases current)
        ⟨fun _ => ?_, fun _ => Or.inl rfl⟩
      rw [pc]
      exact Or.inr ⟨id, rfl, by rw [ready]; rfl⟩
  | notifyTask c op id pc =>
      refine inv.alike (working rfl) rfl (fun idle task busy => ?_) (ClientPc.Alike.update ?_)
      · rcases notifyTask_worker s c op id with ⟨asleep, _⟩ | ⟨_, same⟩
        · rw [asleep] at busy
          cases busy
        · exact idle task (same.symm ▸ busy)
      · rw [pc]
        cases op <;> exact ⟨rfl, by simp⟩
  | setSimStarted c _ _ pc | stayInLoop c _ pc | lockMemtask c _ pc | testTrue c _ pc
  | testFalse c _ pc | sleepMemtask c _ pc | takeMemtask c _ _ _ pc | continueLoop c _ pc
  | access c _ _ pc | answer c _ _ _ pc | joined c pc =>
      refine inv.alike (working rfl) rfl (fun idle => idle) (ClientPc.Alike.update ?_)
      rw [pc]
      exact ⟨rfl, by simp⟩
  | spuriousClient c id pc =>
      refine inv.alike (working rfl) rfl (fun idle => idle) (ClientPc.Alike.update ?_)
      simp [pc, ClientPc.Alike, ClientPc.current]
  | clearSimStarted c pc => exact inv.clearSimStarted thread calm' pc
  | setValue _ task value next pc => exact inv.setValue thread calm' pc
  | leave _ task function py next pc | storeCpu _ task cpu next pc
  | storeCycles _ task cycles next pc =>
      rw [pc] at coherent
      exact .writes ext thread calm' (by rw [pc]; rfl) (coherent.pending (by simp)).1 (working rfl)
        rfl rfl
  | notifyHandler _ _ _ pc _ notified | notifyMem _ _ _ _ _ pc _ notified =>
      have same := notifyMemtask_map ClientPc.current (fun _ => rfl) notified
      obtain ⟨cv, client, rfl, woken⟩ := notifyMemtask_frame notified
      refine inv.alike (working rfl) rfl (fun idle task busy => ?_) fun c => ⟨same c, ?_⟩
      · rw [pc] at busy
        exact idle task busy
      · rcases woken c with still | ⟨_, asleep, lock⟩
        · show client c = _ ↔ _
          rw [still]
        · show client c = _ ↔ _
          rw [asleep, lock]
          simp
  | handled _ task pc =>
      refine inv.alike (working rfl) rfl (fun _ other busy => ?_) fun _ => ⟨rfl, Iff.rfl⟩
      rw [pc] at coherent busy
      obtain rfl := Option.some.inj busy
      exact coherent.handled.1
  | spuriousWorker pc | lock _ pc | workerTestTrue _ pc | workerTestFalse _ pc | sleep _ pc
  | takeTask _ _ _ pc | exit _ pc | dispatch _ _ pc | filterCallback _ _ _ _ pc
  | dropCallback _ _ _ _ pc | beginCallback _ _ _ _ pc | enter _ _ _ _ pc
  | badVariantAccess _ _ _ pc | pushMemtask _ _ _ _ pc | leaveCallback _ _ _ _ _ _ pc
  | brokenPromise _ _ _ _ _ pc =>
      refine inv.alike (working rfl) rfl (fun idle other busy => ?_) fun _ => ⟨rfl, Iff.rfl⟩
      rw [pc] at busy
      first | exact idle other busy | cases busy

end VcmlPydrofoil
