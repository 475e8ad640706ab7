import VcmlPydrofoil.MemoryChannel.Locks
import VcmlPydrofoil.TaskChannel.Refinement

/-! The life of a memory access, for any number of clients: at most one access is in flight,
and it is either queued, or served by one client, or answered, while the worker waits for it.
-/

namespace VcmlPydrofoil

open Interaction (Tree)

variable {π β : Type} {vp : Platform π β} {s after : State π β} {label : Label}

/-- The access that a client took from the queue and has not answered. -/
def ClientPc.serving : ClientPc → Option MemAccess
  | .access _ memtask | .answer _ memtask _ => some memtask
  | _ => none

/-- Where the access in flight is. -/
inductive AccessPhase (s : State π β) : Prop
  | quiet (pending : s.worker.pending = none) (queue : s.memtaskQueue = [])
    (serving : ∀ c, (s.client c).serving = none)
  | queued (request : MemCallback) (id : Nat) (pending : s.worker.pending = some (request, id))
    (queue : s.memtaskQueue = [request.toMemAccess id])
    (serving : ∀ c, (s.client c).serving = none) (unset : s.answers id = none)
  | served (request : MemCallback) (id : Nat) (c : ClientId)
    (pending : s.worker.pending = some (request, id)) (queue : s.memtaskQueue = [])
    (serving : (s.client c).serving = some (request.toMemAccess id))
    (others : ∀ d, d ≠ c → (s.client d).serving = none) (unset : s.answers id = none)
  | answered (request : MemCallback) (id : Nat)
    (pending : s.worker.pending = some (request, id)) (queue : s.memtaskQueue = [])
    (serving : ∀ c, (s.client c).serving = none) (set : (s.answers id).isSome)

/-- Promises are numbered in the order of the pushes, and one access is in flight. -/
structure AccessInvariant (s : State π β) : Prop where
  fresh : ∀ id, s.nextAccess ≤ id → s.answers id = none
  numbered : ∀ request id, s.worker.pending = some (request, id) → id < s.nextAccess
  phase : AccessPhase s

/-- The access that a callback posts carries the callback's promise. -/
@[simp] theorem MemCallback.toMemAccess_result (request : MemCallback) (id : Nat)
    : (request.toMemAccess id).result = id := by
  cases request <;> rfl

/-- The queue never holds more than one access. -/
theorem AccessPhase.queue_length_le_one (phase : AccessPhase s) : s.memtaskQueue.length ≤ 1 := by
  cases phase <;> simp [*]

/-- While a client serves an access, the worker waits for that access. -/
theorem AccessPhase.of_serving (phase : AccessPhase s) {c : ClientId} {memtask : MemAccess}
    (serving : (s.client c).serving = some memtask)
    : ∃ request id,
        s.worker.pending = some (request, id) ∧ memtask = request.toMemAccess id
        ∧ s.memtaskQueue = [] ∧ (∀ d, d ≠ c → (s.client d).serving = none)
        ∧ s.answers id = none := by
  cases phase with
  | quiet _ _ nobody | queued _ _ _ _ nobody _ | answered _ _ _ _ nobody _ =>
      simp [nobody c] at serving
  | served request id d pending queue theirs others unset =>
      have same : c = d := by
        by_contra different
        simp [others c different] at serving
      subst d
      have equal := Option.some.inj (serving.symm.trans theirs)
      exact ⟨request, id, pending, equal, queue, others, unset⟩

/-- While an access is queued, the worker waits for that access. -/
theorem AccessPhase.of_queued (phase : AccessPhase s) {memtask : MemAccess}
    {rest : List MemAccess} (queued : s.memtaskQueue = memtask :: rest)
    : ∃ request id,
        s.worker.pending = some (request, id) ∧ memtask = request.toMemAccess id ∧ rest = []
        ∧ (∀ c, (s.client c).serving = none) ∧ s.answers id = none := by
  cases phase with
  | quiet _ empty _ | served _ _ _ _ empty _ _ _ | answered _ _ _ empty _ _ =>
      simp [empty] at queued
  | queued request id pending queue nobody unset =>
      simp only [queue, List.cons.injEq] at queued
      exact ⟨request, id, pending, queued.1.symm, queued.2.symm, nobody, unset⟩

/-- A worker that waits for no access finds nothing in flight. -/
theorem AccessPhase.of_idle (phase : AccessPhase s) (idle : s.worker.pending = none)
    : s.memtaskQueue = [] ∧ ∀ c, (s.client c).serving = none := by
  cases phase <;> simp_all

/-- A worker whose access is answered finds nothing in flight. -/
theorem AccessPhase.of_answered (phase : AccessPhase s) {request : MemCallback} {id : Nat}
    (pending : s.worker.pending = some (request, id)) (set : (s.answers id).isSome)
    : s.memtaskQueue = [] ∧ ∀ c, (s.client c).serving = none := by
  cases phase <;> simp_all

/-- A move that leaves the access in flight where it is. -/
theorem AccessPhase.frame (phase : AccessPhase s)
    (worker : after.worker.pending = s.worker.pending)
    (queue : after.memtaskQueue = s.memtaskQueue) (answers : after.answers = s.answers)
    (serving : ∀ c, (after.client c).serving = (s.client c).serving)
    : AccessPhase after := by
  cases phase with
  | quiet pending empty nobody =>
      exact .quiet (worker.trans pending) (queue.trans empty) (fun c => (serving c).trans (nobody c))
  | queued request id pending queued nobody unset =>
      exact .queued request id (worker.trans pending) (queue.trans queued)
        (fun c => (serving c).trans (nobody c)) (answers ▸ unset)
  | served request id c pending empty mine others unset =>
      exact .served request id c (worker.trans pending) (queue.trans empty)
        ((serving c).trans mine) (fun d different => (serving d).trans (others d different))
        (answers ▸ unset)
  | answered request id pending empty nobody set =>
      exact .answered request id (worker.trans pending) (queue.trans empty)
        (fun c => (serving c).trans (nobody c)) (answers ▸ set)

/-- A move that leaves the access in flight where it is keeps the invariant. -/
theorem AccessInvariant.frame (inv : AccessInvariant s)
    (worker : after.worker.pending = s.worker.pending)
    (queue : (after.memtaskQueue, after.answers, after.nextAccess)
      = (s.memtaskQueue, s.answers, s.nextAccess))
    (serving : ∀ c, (after.client c).serving = (s.client c).serving)
    : AccessInvariant after := by
  simp only [Prod.mk.injEq] at queue
  constructor
  · simpa only [queue] using inv.fresh
  · simpa only [worker, queue] using inv.numbered
  · exact inv.phase.frame worker queue.1 queue.2.1 serving

/-- A client that moves without taking or answering an access. -/
theorem AccessInvariant.client (inv : AccessInvariant s) {c : ClientId} {pc : ClientPc}
    (serving : pc.serving = (s.client c).serving)
    (client : after.client = Function.update s.client c pc)
    (worker : after.worker.pending = s.worker.pending)
    (queue : (after.memtaskQueue, after.answers, after.nextAccess)
      = (s.memtaskQueue, s.answers, s.nextAccess))
    : AccessInvariant after := by
  refine inv.frame worker queue (fun d => ?_)
  rw [client]
  by_cases same : d = c
  · rw [same, Function.update_self, serving]
  · rw [Function.update_of_ne same]

/-- Taking an access from the queue begins its service. -/
theorem AccessInvariant.takeMemtask (inv : AccessInvariant s) {c : ClientId} {id : Nat}
    {memtask : MemAccess} {rest : List MemAccess} (queued : s.memtaskQueue = memtask :: rest)
    : AccessInvariant
        { s with
          memtaskMutex := false, memtaskQueue := rest
          client := Function.update s.client c (.access id memtask) } := by
  obtain ⟨request, found, pending, rfl, rfl, nobody, unset⟩ := inv.phase.of_queued queued
  exact {
    fresh := inv.fresh
    numbered := inv.numbered
    phase := .served request found c pending rfl (by simp [ClientPc.serving])
      (fun d different => by simp [different, nobody d]) unset
  }

/-- The end of a service, with an answer or with an exception, sets the promise. -/
theorem AccessInvariant.settled (inv : AccessInvariant s) {c : ClientId} {memtask : MemAccess}
    {pc : ClientPc} {answer : Answer} (serving : (s.client c).serving = some memtask)
    (idle : pc.serving = none) (client : after.client = Function.update s.client c pc)
    (answers : after.answers = Function.update s.answers memtask.result (some answer))
    (rest : (after.worker, after.memtaskQueue, after.nextAccess)
      = (s.worker, s.memtaskQueue, s.nextAccess))
    : AccessInvariant after := by
  simp only [Prod.mk.injEq] at rest
  obtain ⟨worker, queue, next⟩ := rest
  obtain ⟨request, id, pending, rfl, empty, others, _⟩ := inv.phase.of_serving serving
  rw [MemCallback.toMemAccess_result] at answers
  have bound := inv.numbered request id pending
  constructor
  · intro found beyond
    rw [next] at beyond
    rw [answers, Function.update_of_ne (by omega)]
    exact inv.fresh found beyond
  · simpa only [worker, next] using inv.numbered
  · refine .answered request id (worker ▸ pending) (queue.trans empty) (fun d => ?_) (by simp [answers])
    rw [client]
    by_cases same : d = c
    · rw [same, Function.update_self, idle]
    · rw [Function.update_of_ne same, others d same]

/-- A posted access is queued under a fresh promise. -/
theorem AccessInvariant.pushMemtask (inv : AccessInvariant s) {task : PythonTask}
    {request : MemCallback} {next : request.Reply → Script π}
    (pc : s.worker = .post task request next)
    : AccessInvariant (s.pushMemtask task request next) := by
  obtain ⟨empty, nobody⟩ := inv.phase.of_idle (by rw [pc]; rfl)
  constructor
  · intro id beyond
    exact inv.fresh id (Nat.le_of_succ_le beyond)
  · intro found id pending
    obtain ⟨-, rfl⟩ : request = found ∧ s.nextAccess = id := by
      simpa [State.pushMemtask, WorkerPc.pending] using pending
    exact Nat.lt_succ_self _
  · exact .queued request s.nextAccess rfl (by simp [State.pushMemtask, empty]) nobody
      (inv.fresh _ (Nat.le_refl _))

/-- A callback that has its answer leaves nothing in flight. -/
theorem AccessInvariant.leave (inv : AccessInvariant s) {request : MemCallback} {id : Nat}
    (pending : s.worker.pending = some (request, id)) (set : (s.answers id).isSome)
    (idle : after.worker.pending = none)
    (rest : (after.memtaskQueue, after.answers, after.nextAccess, after.client)
      = (s.memtaskQueue, s.answers, s.nextAccess, s.client))
    : AccessInvariant after := by
  simp only [Prod.mk.injEq] at rest
  obtain ⟨queue, answers, next, client⟩ := rest
  obtain ⟨empty, nobody⟩ := inv.phase.of_answered pending set
  constructor
  · simpa only [answers, next] using inv.fresh
  · simp [idle]
  · exact .quiet idle (queue.trans empty) (client ▸ nobody)

/-- A notification moves no access. -/
theorem AccessInvariant.notify (inv : AccessInvariant s) {wake : Nat}
    (notified : s.notifyMemtask wake = some after)
    : AccessInvariant after := by
  have serving := notifyMemtask_map ClientPc.serving (fun _ => rfl) notified
  obtain ⟨cv, client, rfl, _⟩ := notifyMemtask_frame notified
  exact inv.frame rfl rfl serving

/-- Every move keeps one access in flight, by cases on the move. -/
theorem AccessInvariant.move (inv : AccessInvariant s) (move : Move vp s label after)
    : AccessInvariant after := by
  cases move with
  | call c op pc =>
      rcases call_cases s c op pc with ⟨_, same⟩ | ⟨_, _, _, same⟩ <;> rw [same]
      · exact inv.client (by rw [pc]; rfl) rfl rfl rfl
      · exact inv.client (by rw [pc]; cases op <;> rfl) rfl rfl rfl
  | pushTask c op pc => exact inv.client (by rw [pc]; cases op <;> rfl) rfl rfl rfl
  | notifyTask c op id pc =>
      refine inv.client (by rw [pc]; cases op <;> rfl) rfl ?_ rfl
      simp only [State.notifyTask]
      cases s.worker <;> rfl
  | finish c op id value pc =>
      obtain ⟨counts, returned, same⟩ := finish_eq s c op id value
      rw [same]
      exact inv.client (by rw [pc]; cases op <;> rfl) rfl rfl rfl
  | setSimStarted _ _ _ pc | leaveLoop _ _ _ pc | stayInLoop _ _ pc | lockMemtask _ _ pc
  | testTrue _ _ pc | testFalse _ _ pc | sleepMemtask _ _ pc | continueLoop _ _ pc
  | access _ _ _ pc | clearSimStarted _ pc | joined _ pc =>
      exact inv.client (by rw [pc]; rfl) rfl rfl rfl
  | takeMemtask c id memtask rest _ queued => exact inv.takeMemtask queued
  | answer c id memtask success pc =>
      exact inv.settled (by rw [pc]; rfl) rfl rfl rfl rfl
  | busThrows c id memtask pc =>
      exact inv.settled (by rw [pc]; rfl) rfl rfl rfl rfl
  | spuriousClient c id pc =>
      exact inv.client (by simp only [pc]; rfl) rfl rfl rfl
  | pushMemtask _ task request next pc => exact inv.pushMemtask pc
  | notifyHandler _ _ _ pc _ notified =>
      exact (inv.notify notified).frame
        (by rw [notifyMemtask_worker notified, pc]; rfl) rfl (fun _ => rfl)
  | notifyMem _ _ _ _ _ pc _ notified =>
      exact (inv.notify notified).frame
        (by rw [notifyMemtask_worker notified, pc]; rfl) rfl (fun _ => rfl)
  | leaveCallback _ _ _ _ _ _ pc answered | brokenPromise _ _ _ _ _ pc answered =>
      exact inv.leave (by rw [pc]; rfl) (by simp [answered]) rfl rfl
  | spuriousWorker pc | lock _ pc | workerTestTrue _ pc | workerTestFalse _ pc | sleep _ pc
  | takeTask _ _ _ pc | exit _ pc | dispatch _ _ pc | handled _ _ pc | filterCallback _ _ _ _ pc
  | dropCallback _ _ _ _ pc | beginCallback _ _ _ _ pc | enter _ _ _ _ pc | leave _ _ _ _ _ pc
  | storeCpu _ _ _ _ pc | storeCycles _ _ _ _ pc | setValue _ _ _ _ pc
  | badVariantAccess _ _ _ pc =>
      exact inv.frame (by rw [pc]; rfl) rfl (fun _ => rfl)

/-- No access is in flight before the constructor. -/
theorem AccessInvariant.initial (py : π) (bus : β) : AccessInvariant (State.initial py bus) where
  fresh := fun _ _ => rfl
  numbered := fun _ _ pending => nomatch pending
  phase := .quiet rfl rfl (fun _ => rfl)

end VcmlPydrofoil
