import VcmlPydrofoil.MemoryChannel.Simulations

/-! Where the worker can be blocked while every operation completes, and what a client that
waits for a task can then rely on.
-/

namespace VcmlPydrofoil

open Interaction (Tree)

variable {π β : Type} {vp : Platform π β} {s after : State π β} {label : Label}

/-- A `notify_one` never blocks. -/
theorem notifyMemtask_enabled (s : State π β) : ∃ after, s.notifyMemtask 0 = some after := by
  unfold State.notifyMemtask
  cases s.memtaskCv <;> simp

/-- The actions of a handler never block before they post an access. -/
theorem runInstr_enabled (s : State π β) (task : PythonTask) (instr : Instr π)
    (next : instr.Reply → Script π)
    : ∃ after, s.runInstr 0 task instr next = some after := by
  cases instr with
  | notifyMemtask =>
      obtain ⟨after, notified⟩ := notifyMemtask_enabled s
      exact ⟨_, by simp only [State.runInstr, notified, Option.map_some]; rfl⟩
  | _ => exact ⟨_, rfl⟩

/-- A worker that cannot move sleeps, has left, waits for `memtask_mutex`, or waits for the
answer of its access.
-/
inductive WorkerBlocked (s : State π β) : Prop
  | asleep (pc : s.worker = .asleep)
  | exited (pc : s.worker = .exited)
  | mutex (task : PythonTask) (request : MemCallback) (next : request.Reply → Script π)
    (pc : s.worker = .post task request next) (held : s.memtaskMutex = true)
  | answer (task : PythonTask) (request : MemCallback) (id : Nat)
    (next : request.Reply → Script π) (pc : s.worker = .getAnswer task request id next)
    (unset : s.answers id = none)

/-- The worker is blocked nowhere else, by cases on where it stands. -/
theorem CompletingInvariant.worker_blocked (inv : CompletingInvariant s)
    (blocked : s.workerStep vp 0 = none)
    : WorkerBlocked s := by
  have worker := inv.core.channel.worker
  have mutex := worker.mutex
  cases pc : s.worker with
  | asleep => exact .asleep pc
  | exited => exact .exited pc
  | terminated task => exact absurd inv.completed (inv.core.exceptions.terminated task pc)
  | lock =>
      rw [pc] at mutex
      simp [State.workerStep, pc, mutex, WorkerPc.locksTask] at blocked
  | test =>
      simp only [State.workerStep, pc] at blocked
      split at blocked <;> contradiction
  | take =>
      have taking := worker.taking pc
      simp only [State.workerStep, pc, State.takeTask] at blocked
      cases queue : s.taskQueue <;> simp_all
  | sleep | dispatch => simp [State.workerStep, pc] at blocked
  | handler task script =>
      cases script with
      | ret value => simp [State.workerStep, pc] at blocked
      | ask instr next =>
          obtain ⟨after, ran⟩ := runInstr_enabled s task instr next
          simp [State.workerStep, pc, ran] at blocked
  | post task request next =>
      refine .mutex task request next pc ?_
      by_contra free
      simp [State.workerStep, pc, free] at blocked
  | notifyMem task request id next =>
      obtain ⟨after, notified⟩ := notifyMemtask_enabled s
      simp [State.workerStep, pc, notified] at blocked
  | getAnswer task request id next =>
      refine .answer task request id next pc ?_
      simp only [State.workerStep, pc] at blocked
      split at blocked <;> first | assumption | contradiction

/-- A client that waits for an unanswered task finds the worker at work on a task, or about to
take one: it has not left, and if it sleeps, a client has a notification to issue.
-/
theorem CompletingInvariant.awaited (inv : CompletingInvariant s) {c : ClientId} {id : Nat}
    (waiting : (s.client c).phase.ticket? = some id) (unset : s.results id = none)
    : s.worker ≠ .exited
      ∧ (s.worker = .asleep → ∃ d ticket, (s.client d).phase = .posted ticket) := by
  have channel := inv.core.channel.channel
  have bound := (List.getElem?_eq_some_iff.mp (channel.holder c id waiting)).1
  have queued (idle : s.worker.task? = none) : s.taskQueue ≠ [] := by
    rcases channel.posted_cases bound with waits | busy | settled
    · intro empty
      simp [State.taskChannel, empty] at waits
    · exfalso
      simp only [State.taskChannel] at busy
      cases pc : s.worker <;> simp_all [WorkerPc.task?, WorkerPc.phase]
    · have := (channel.replied id).mpr settled
      simp [State.taskChannel, unset] at this
  constructor
  · intro exited
    exact queued (by rw [exited]; rfl) (inv.shutdown.exited exited).2
  · intro asleep
    have sleeping : s.taskChannel.server = .asleep := by rw [State.taskChannel, asleep]; rfl
    have waits : s.taskChannel.queue ≠ [] := by
      simpa [State.taskChannel] using queued (by rw [asleep]; rfl)
    exact channel.awake sleeping waits

end VcmlPydrofoil
