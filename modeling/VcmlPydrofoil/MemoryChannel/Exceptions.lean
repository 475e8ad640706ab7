import VcmlPydrofoil.MemoryChannel.Accesses
import VcmlPydrofoil.TaskChannel.Simulation
import VcmlPydrofoil.TaskChannel.Tickets

/-! What a throwing bus access does to the worker: the promise it waits for is broken, no other
access is ever posted, and the process is aborted.
-/

namespace VcmlPydrofoil

open Interaction (Tree)

variable {π β : Type} {vp : Platform π β} {s after : State π β} {label : Label}

/-- The worker waits for an abandoned promise, or its exception has aborted the process. -/
def WorkerPc.Doomed (answers : Nat → Option Answer) (pc : WorkerPc π) : Prop :=
  (∃ task, pc = .terminated task)
  ∨ ∃ request id, pc.pending = some (request, id) ∧ answers id = some .broken

/-- Only an exception breaks a promise or aborts the process, and then it is the last one. When
all tasks come from one client, the exception left the operation whose task is being handled.
-/
structure ExceptionInvariant (s : State π β) : Prop where
  doomed : s.log.abandoned ≠ [] → s.worker.Doomed s.answers
  broken : ∀ id, s.answers id = some .broken → s.log.abandoned ≠ []
  terminated : ∀ task, s.worker = .terminated task → s.log.abandoned ≠ []
  taken
    : ∀ c,
        (∀ entry ∈ s.log.posted, entry.1 = c)
        → ∀ id ∈ s.log.abandoned, id ∈ s.taskChannel.taken

/-- The process runs as long as no bus access has thrown. -/
theorem ExceptionInvariant.running (inv : ExceptionInvariant s) (completed : s.log.abandoned = [])
    : s.aborted = false := by
  cases pc : s.worker with
  | terminated task => exact absurd completed (inv.terminated task pc)
  | _ => simp [State.aborted, pc]

/-- A doomed worker has a task. -/
theorem WorkerPc.Doomed.busy {answers : Nat → Option Answer} {pc : WorkerPc π}
    (doomed : pc.Doomed answers)
    : pc.task?.isSome := by
  rcases doomed with ⟨task, rfl⟩ | ⟨request, id, pending, _⟩
  · rfl
  · cases pc <;> simp_all [WorkerPc.pending, WorkerPc.task?]

/-- No client serves an access once the worker is doomed. -/
theorem AccessPhase.not_doomed (phase : AccessPhase s) {c : ClientId} {memtask : MemAccess}
    (serving : (s.client c).serving = some memtask)
    : ¬ s.worker.Doomed s.answers := by
  obtain ⟨request, id, pending, _, _, _, unset⟩ := phase.of_serving serving
  rintro (⟨task, ended⟩ | ⟨_, other, same, broken⟩)
  · simp [ended, WorkerPc.pending] at pending
  · simp only [pending, Option.some.injEq, Prod.mk.injEq] at same
    simp [same.2 ▸ unset] at broken

/-- A move that neither throws nor aborts the process. -/
theorem ExceptionInvariant.frame (inv : ExceptionInvariant s)
    (doomed : s.worker.Doomed s.answers → after.worker.Doomed after.answers)
    (broken : ∀ id, after.answers id = some .broken → s.answers id = some .broken)
    (terminated : ∀ task, after.worker = .terminated task → s.worker.Doomed s.answers)
    (posted : s.log.posted ⊆ after.log.posted) (taken : s.log.taken ⊆ after.log.taken)
    (abandoned : after.log.abandoned = s.log.abandoned)
    : ExceptionInvariant after := by
  constructor
  · exact fun thrown => doomed (inv.doomed (abandoned ▸ thrown))
  · exact fun id gone => abandoned ▸ inv.broken id (broken id gone)
  · intro task ended
    rcases terminated task ended with ⟨other, before⟩ | ⟨_, id, _, gone⟩
    · exact abandoned ▸ inv.terminated other before
    · exact abandoned ▸ inv.broken id gone
  · intro c single id member
    rw [abandoned] at member
    have earlier := inv.taken c (fun entry old => single entry (posted old)) id member
    simp only [State.taskChannel, List.mem_map] at earlier ⊢
    obtain ⟨task, old, same⟩ := earlier
    exact ⟨task, taken old, same⟩

/-- A move of a client that leaves the worker, the promises and the history alone. -/
theorem ExceptionInvariant.client (inv : ExceptionInvariant s)
    (worker : (after.worker, after.answers) = (s.worker, s.answers))
    (history
      : (after.log.posted, after.log.taken, after.log.abandoned)
        = (s.log.posted, s.log.taken, s.log.abandoned))
    : ExceptionInvariant after := by
  simp only [Prod.mk.injEq] at worker history
  obtain ⟨worker, answers⟩ := worker
  obtain ⟨posted, taken, abandoned⟩ := history
  refine inv.frame ?_ ?_ ?_ (fun _ old => posted ▸ old) (fun _ old => taken ▸ old) abandoned
  · rw [worker, answers]
    exact id
  · rw [answers]
    exact fun _ => id
  · exact fun task ended => Or.inl ⟨task, worker ▸ ended⟩

/-- A move of a worker that is not doomed. -/
theorem ExceptionInvariant.worker (inv : ExceptionInvariant s)
    (alive : ¬ s.worker.Doomed s.answers) (running : ∀ task, after.worker ≠ .terminated task)
    (answers : after.answers = s.answers)
    (history : (after.log.posted, after.log.abandoned) = (s.log.posted, s.log.abandoned))
    (taken : s.log.taken ⊆ after.log.taken)
    : ExceptionInvariant after := by
  simp only [Prod.mk.injEq] at history
  exact inv.frame (fun doomed => absurd doomed alive) (fun _ => by rw [answers]; exact id)
    (fun task ended => absurd ended (running task)) (fun _ old => history.1 ▸ old) taken history.2

/-- A worker without an access in flight that has not terminated is not doomed. -/
theorem WorkerPc.not_doomed {answers : Nat → Option Answer} {pc : WorkerPc π}
    (idle : pc.pending = none) (running : ∀ task, pc ≠ .terminated task)
    : ¬ pc.Doomed answers := by
  rintro (⟨task, ended⟩ | ⟨_, _, pending, _⟩)
  · exact running task ended
  · simp [idle] at pending

/-- An exception dooms the worker and is the first one. -/
theorem ExceptionInvariant.busThrows (inv : ExceptionInvariant s) (channel : ChannelInvariant s)
    (access : AccessInvariant s) {c : ClientId} {id : Nat} {memtask : MemAccess}
    (pc : s.client c = .access id memtask)
    : ExceptionInvariant (s.busThrows c id memtask) := by
  have serving : (s.client c).serving = some memtask := by rw [pc]; rfl
  have first : s.log.abandoned = [] := by
    by_contra thrown
    exact access.phase.not_doomed serving (inv.doomed thrown)
  obtain ⟨request, found, pending, rfl, _⟩ := access.phase.of_serving serving
  have broken : (s.busThrows c id (request.toMemAccess found)).answers found = some .broken := by
    simp [State.busThrows]
  constructor
  · exact fun _ => Or.inr ⟨request, found, pending, broken⟩
  · exact fun _ _ => by simp [State.busThrows]
  · exact fun _ _ => by simp [State.busThrows]
  · intro d single ticket member
    simp only [State.busThrows, first, List.nil_append, List.mem_singleton] at member
    subst member
    obtain ⟨task, busy, unset⟩ := channel.worker.coherent.of_pending pending
    have taken : task ∈ s.log.taken := by
      rw [← channel.worker.handling, busy]
      simp
    have mem : task.result ∈ s.taskChannel.taken := List.mem_map_of_mem taken
    have bound := channel.channel.queue_lt (List.mem_append_left _ mem)
    -- The one client holds the ticket being handled, and it is its only one.
    have poster : s.taskChannel.posted[task.result]? = some d := by
      obtain ⟨entry, posted, same⟩ := List.mem_map.mp (List.getElem_mem bound)
      rw [List.getElem?_eq_getElem bound, ← same, single entry posted]
    have holds := channel.channel.unanswered_held poster unset (by simp [State.taskChannel, first])
    have mine : (s.taskChannel.client c).ticket? = some ticket := by
      simp [State.taskChannel, pc, ClientPc.phase, RequestServer.ClientPhase.ticket?]
    have same : c = d := by
      have owner := channel.channel.holder c ticket mine
      have position := (List.getElem?_eq_some_iff.mp owner)
      obtain ⟨entry, posted, equal⟩ := List.mem_map.mp (List.getElem_mem position.1)
      rw [position.2] at equal
      exact equal.symm.trans (single entry posted)
    subst d
    rw [mine] at holds
    exact Option.some.inj holds ▸ mem

/-- A notification leaves the worker and its promises alone. -/
theorem ExceptionInvariant.notify (inv : ExceptionInvariant s) {wake : Nat}
    (notified : s.notifyMemtask wake = some after)
    : ExceptionInvariant after := by
  obtain ⟨cv, client, rfl, _⟩ := notifyMemtask_frame notified
  exact inv.client rfl rfl

/-- An answer is given to a worker that is not doomed. -/
theorem ExceptionInvariant.answer (inv : ExceptionInvariant s) (access : AccessInvariant s)
    {c : ClientId} {id : Nat} {memtask : MemAccess} {success : Bool}
    (pc : s.client c = .answer id memtask success)
    : ExceptionInvariant (s.answer c id memtask success) := by
  have alive : ¬ s.worker.Doomed s.answers :=
    access.phase.not_doomed (show (s.client c).serving = some memtask by rw [pc]; rfl)
  refine inv.frame (fun doomed => absurd doomed alive) ?_ (fun task ended => Or.inl ⟨task, ended⟩)
    (List.Subset.refl _) (List.Subset.refl _) rfl
  intro found broken
  by_cases same : found = memtask.result
  · simp [State.answer, same] at broken
  · simpa [State.answer, same] using broken

/-- Every move keeps the consequences of an exception, by cases on the move. -/
theorem ExceptionInvariant.move (inv : ExceptionInvariant s) (channel : ChannelInvariant s)
    (access : AccessInvariant s) (move : Move vp s label after)
    : ExceptionInvariant after := by
  cases move with
  | call c op pc =>
      rcases call_cases s c op pc with ⟨_, same⟩ | ⟨_, _, _, same⟩ <;> rw [same] <;>
        exact inv.client rfl rfl
  | pushTask c op =>
      exact inv.frame id (fun _ => id) (fun task ended => Or.inl ⟨task, ended⟩)
        (List.subset_append_left _ _) (List.Subset.refl _) rfl
  | notifyTask c op id pc =>
      refine inv.frame ?_ (fun _ same => same) ?_ (List.Subset.refl _) (List.Subset.refl _) rfl
      · rintro (⟨task, ended⟩ | ⟨request, found, pending, broken⟩)
        · exact Or.inl ⟨task, by simp [State.notifyTask, ended]⟩
        · refine Or.inr ⟨request, found, ?_, broken⟩
          cases here : s.worker <;> simp_all [State.notifyTask, WorkerPc.pending]
      · intro task ended
        cases here : s.worker <;> simp_all [State.notifyTask]
        exact Or.inl ⟨task, rfl⟩
  | finish c op id value pc =>
      obtain ⟨counts, returned, same⟩ := finish_eq s c op id value
      rw [same]
      exact inv.client rfl rfl
  | setSimStarted | leaveLoop | stayInLoop | lockMemtask | testTrue | testFalse | sleepMemtask
  | takeMemtask | continueLoop | access | clearSimStarted | joined | spuriousClient =>
      exact inv.client rfl rfl
  | answer c id memtask success pc => exact inv.answer access pc
  | busThrows c id memtask pc => exact inv.busThrows channel access pc
  | notifyHandler _ task next pc _ notified =>
      have alive : ¬ s.worker.Doomed s.answers :=
        WorkerPc.not_doomed (by rw [pc]; rfl) (by simp [pc])
      refine (inv.notify notified).worker ?_ (by simp) rfl rfl (List.Subset.refl _)
      obtain ⟨cv, client, rfl, _⟩ := notifyMemtask_frame notified
      exact alive
  | notifyMem _ task request id next pc after notified =>
      obtain ⟨cv, client, rfl, _⟩ := notifyMemtask_frame notified
      refine inv.frame ?_ (fun _ same => same) (by simp) (List.Subset.refl _) (List.Subset.refl _) rfl
      rintro (⟨other, ended⟩ | ⟨found, ticket, pending, broken⟩)
      · simp [pc] at ended
      · exact Or.inr ⟨found, ticket, by rw [pc] at pending; exact pending, broken⟩
  | leaveCallback _ task request id next success pc answered =>
      refine inv.worker ?_ (by simp [State.leaveCallback]) rfl rfl (List.Subset.refl _)
      rintro (⟨other, ended⟩ | ⟨found, ticket, pending, broken⟩)
      · simp [pc] at ended
      · simp only [pc, WorkerPc.pending, Option.some.injEq, Prod.mk.injEq] at pending
        simp [← pending.2, answered] at broken
  | brokenPromise _ task request id next pc answered =>
      have doomed : s.worker.Doomed s.answers := Or.inr ⟨request, id, by rw [pc]; rfl, answered⟩
      exact inv.frame (fun _ => Or.inl ⟨task, rfl⟩) (fun _ same => same) (fun _ _ => doomed)
        (List.Subset.refl _) (List.Subset.refl _) rfl
  | badVariantAccess _ task next pc =>
      have coherent := channel.worker.coherent
      rw [pc] at coherent
      obtain ⟨_, _, pending, _⟩ := coherent.pending (by simp)
      cases pending
  | takeTask _ task rest pc =>
      exact inv.worker (WorkerPc.not_doomed (by rw [pc]; rfl) (by simp [pc])) (by simp) rfl rfl
        (List.subset_append_left _ _)
  | spuriousWorker pc | lock _ pc | workerTestTrue _ pc | workerTestFalse _ pc | sleep _ pc
  | exit _ pc | dispatch _ _ pc | handled _ _ pc | filterCallback _ _ _ _ pc
  | dropCallback _ _ _ _ pc | beginCallback _ _ _ _ pc | enter _ _ _ _ pc | leave _ _ _ _ _ pc
  | storeCpu _ _ _ _ pc | storeCycles _ _ _ _ pc | setValue _ _ _ _ pc | pushMemtask _ _ _ _ pc =>
      exact inv.worker (WorkerPc.not_doomed (by rw [pc]; rfl) (by simp [pc]))
        (by intro _ ended; cases ended) rfl rfl (List.Subset.refl _)

/-- What holds in every run from the start, whatever its callers, its bus and its plugin do. -/
structure CoreInvariant (s : State π β) : Prop where
  channel : ChannelInvariant s
  tickets : TicketInvariant s
  locks : LockInvariant s
  access : AccessInvariant s
  exceptions : ExceptionInvariant s

/-- The promise of the task that is posted next is not set. -/
theorem CoreInvariant.unset_next (inv : CoreInvariant s) : s.results s.nextTask = none := by
  refine inv.channel.channel.fresh ?_
  have tickets := congrArg List.length inv.channel.worker.tickets
  simpa [State.taskChannel] using tickets.le

/-- A core before its constructor satisfies the invariant. -/
theorem CoreInvariant.initial (py : π) (bus : β) : CoreInvariant (State.initial py bus) where
  channel := .initial py bus
  tickets := .initial py bus
  locks := .initial py bus
  access := .initial py bus
  exceptions := by constructor <;> simp [State.initial]

/-- Every move keeps the invariant. -/
theorem CoreInvariant.move (inv : CoreInvariant s) (move : Move vp s label after)
    : CoreInvariant after where
  channel := inv.channel.move move
  tickets := inv.tickets.move move
  locks := inv.locks.move move
  access := inv.access.move move
  exceptions := inv.exceptions.move inv.channel inv.access move

/-- The invariant holds in every state of every run from the start, by induction on the run. -/
theorem CoreInvariant.reaches {guard : Transition.Guard (State π β) Label} {py : π} {bus : β}
    (reached : (coreSystem vp).Reaches guard (State.initial py bus) s)
    : CoreInvariant s := by
  refine reached.invariant ?_ (.initial py bus)
  rintro before after inv ⟨label, _, stepped⟩
  exact inv.move (step_move stepped)

end VcmlPydrofoil
