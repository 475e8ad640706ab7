import VcmlPydrofoil.TaskChannel.StopRequest

/-! One simulation at a time: `sim_started` is set exactly while a client is between its line
97 and its line 129, and the worker runs a Simulate task only for such a client.
-/

namespace VcmlPydrofoil

open Interaction (Tree)

variable {π β : Type} {vp : Platform π β} {s after : State π β} {label : Label}

/-- A client between setting `sim_started` and clearing it. -/
def ClientPc.flagged : ClientPc → Bool
  | .setSimStarted _ _ => false
  | pc => pc.inSimulate

/-- At most one client simulates, and the flag follows it. -/
structure FlagInvariant (s : State π β) : Prop where
  single
    : ∀ c d, (s.client c).simulates = true → (s.client d).simulates = true → c = d
  flag : s.simStarted = true ↔ ∃ c, (s.client c).flagged = true
  noResult : ∀ c cycles id, s.client c ≠ .getResult (.simulate cycles) id

/-- A client with the flag set simulates. -/
theorem ClientPc.simulates_of_flagged {pc : ClientPc} (flagged : pc.flagged = true)
    : pc.simulates = true := by
  unfold ClientPc.flagged at flagged
  unfold ClientPc.simulates
  split at flagged
  · contradiction
  · split
    · rfl
    · exact flagged

/-- A client that holds `memtask_mutex` simulates. -/
theorem ClientPc.simulates_of_locksMemtask {pc : ClientPc} (locks : pc.locksMemtask = true)
    : pc.simulates = true := by
  cases pc <;> first | rfl | cases locks

/-- A client that serves an access simulates. -/
theorem ClientPc.simulates_of_serving {pc : ClientPc} {memtask : MemAccess}
    (serving : pc.serving = some memtask)
    : pc.simulates = true := by
  cases pc <;> first | rfl | cases serving

/-- A client asleep on `memtask_cv` simulates. -/
theorem ClientPc.simulates_of_sleeps {pc : ClientPc} (sleeps : pc.sleeps = true)
    : pc.simulates = true := by
  cases pc <;> first | rfl | cases sleeps

/-- Inside `simulate`, only a client at line 97 is without the flag. -/
theorem ClientPc.waits_of_not_flagged {pc : ClientPc} (inside : pc.inSimulate = true)
    (unflagged : pc.flagged = false)
    : ∃ cycles id, pc = .setSimStarted cycles id := by
  unfold ClientPc.flagged at unflagged
  split at unflagged
  · exact ⟨_, _, rfl⟩
  · simp [inside] at unflagged

/-- A move within `simulate` or outside it leaves the flag and its client alone. -/
theorem FlagInvariant.frame (inv : FlagInvariant s)
    (simulates : ∀ c, (after.client c).simulates = (s.client c).simulates)
    (flagged : ∀ c, (after.client c).flagged = (s.client c).flagged)
    (noResult : ∀ c cycles id, after.client c ≠ .getResult (.simulate cycles) id)
    (flag : after.simStarted = s.simStarted)
    : FlagInvariant after where
  single := by simpa only [simulates] using inv.single
  flag := by simpa only [flag, flagged] using inv.flag
  noResult := noResult

/-- A client that moves within `simulate` or outside it. -/
theorem FlagInvariant.client (inv : FlagInvariant s) {c : ClientId} {pc : ClientPc}
    (simulates : pc.simulates = (s.client c).simulates)
    (flagged : pc.flagged = (s.client c).flagged)
    (noResult : ∀ cycles id, pc ≠ .getResult (.simulate cycles) id)
    (client : after.client = Function.update s.client c pc)
    (flag : after.simStarted = s.simStarted)
    : FlagInvariant after := by
  refine inv.frame (fun d => ?_) (fun d => ?_) (fun d cycles id => ?_) flag <;> rw [client]
  all_goals by_cases same : d = c
  all_goals simp only [same, Function.update_self, ne_eq, not_false_eq_true, Function.update_of_ne]
  · exact simulates
  · exact flagged
  · exact noResult cycles id
  · exact inv.noResult d cycles id

/-- Calling `simulate` while nobody runs it. -/
theorem FlagInvariant.callSimulate (inv : FlagInvariant s) {c : ClientId} {cycles : BitVec 64}
    (alone : ∀ d, (s.client d).simulates = false)
    (client : after.client = Function.update s.client c (.push (.simulate cycles)))
    (flag : after.simStarted = s.simStarted)
    : FlagInvariant after := by
  have unflagged (d : ClientId) : (s.client d).flagged = false := by
    by_contra flagged
    have := ClientPc.simulates_of_flagged (by simpa using flagged)
    simp [alone d] at this
  have only (d : ClientId) (simulating : (after.client d).simulates = true) : d = c := by
    by_contra different
    simp [client, different, alone d] at simulating
  constructor
  · exact fun d e first second => (only d first).trans (only e second).symm
  · rw [flag, inv.flag, client]
    simp only [unflagged, Bool.false_eq_true, exists_false, false_iff, not_exists]
    intro d flagged
    by_cases same : d = c
    · simp [same, ClientPc.flagged, ClientPc.inSimulate] at flagged
    · simp [same, unflagged d] at flagged
  · intro d found id
    rw [client]
    by_cases same : d = c
    · simp [same]
    · simpa [same] using inv.noResult d found id

/-- Line 97. -/
theorem FlagInvariant.setSimStarted (inv : FlagInvariant s) {c : ClientId}
    {cycles : BitVec 64} {id : Nat} (pc : s.client c = .setSimStarted cycles id)
    : FlagInvariant
        ({ s with simStarted := true }.goto c (.notifyTask (.simulate cycles) id)) := by
  have simulates (d : ClientId)
      : (Function.update s.client c (.notifyTask (.simulate cycles) id) d).simulates
        = (s.client d).simulates := by
    by_cases same : d = c
    · simp [same, pc, ClientPc.simulates, ClientPc.inSimulate]
    · simp [same]
  constructor
  · simpa only [State.goto, simulates] using inv.single
  · exact ⟨fun _ => ⟨c, by simp [State.goto, ClientPc.flagged, ClientPc.inSimulate]⟩, fun _ => rfl⟩
  · intro d found ticket
    by_cases same : d = c
    · simp [State.goto, same]
    · simpa [State.goto, same] using inv.noResult d found ticket

/-- Line 129: nobody else has the flag. -/
theorem FlagInvariant.clearSimStarted (inv : FlagInvariant s) {c : ClientId}
    (pc : s.client c = .clearSimStarted)
    : FlagInvariant (s.clearSimStarted c) := by
  have simulating : (s.client c).simulates = true := by rw [pc]; rfl
  have client : (s.clearSimStarted c).client = Function.update s.client c .idle := rfl
  have none (d : ClientId) : ((s.clearSimStarted c).client d).simulates = false := by
    rw [client]
    by_cases same : d = c
    · simp [same, ClientPc.simulates, ClientPc.inSimulate]
    · rw [Function.update_of_ne same]
      by_contra other
      exact same (inv.single d c (by simpa using other) simulating)
  constructor
  · intro d e first
    simp [none d] at first
  · refine ⟨fun started => absurd started Bool.false_ne_true, fun flags => ?_⟩
    obtain ⟨d, flagged⟩ := flags
    have := ClientPc.simulates_of_flagged flagged
    simp [none d] at this
  · intro d found id
    rw [client]
    by_cases same : d = c
    · simp [same]
    · simpa [same] using inv.noResult d found id

/-- Every move keeps one simulation at a time, by cases on the move. -/
theorem FlagInvariant.move (inv : FlagInvariant s) (move : Move vp s label after)
    (completes : ∀ c, label ≠ .busThrows c) (one : OneSimulation s label)
    : FlagInvariant after := by
  cases move with
  | call c op pc =>
      rcases call_cases s c op pc with ⟨_, same⟩ | ⟨_, _, _, same⟩ <;> rw [same]
      · cases op with
        | simulate cycles => exact inv.callSimulate (one c cycles rfl) rfl rfl
        | _ => exact inv.client (by rw [pc]; rfl) (by rw [pc]; rfl) (by simp) rfl rfl
      · refine inv.client ?_ ?_ ?_ rfl rfl <;> cases op <;> first | rw [pc]; rfl | simp [Operation.withoutTask]
  | pushTask c op pc =>
      refine inv.client ?_ ?_ ?_ rfl rfl <;> cases op <;> first | rw [pc]; rfl | simp
  | notifyTask c op id pc =>
      refine inv.client ?_ ?_ ?_ rfl rfl <;> cases op <;> first | rw [pc]; rfl | simp
  | finish c op id value pc =>
      obtain ⟨counts, returned, same⟩ := finish_eq s c op id value
      rw [same]
      refine inv.client ?_ ?_ ?_ rfl rfl <;> cases op <;> first | rw [pc]; rfl | simp [Operation.next]
  | setSimStarted c cycles id pc => exact inv.setSimStarted pc
  | clearSimStarted c pc => exact inv.clearSimStarted pc
  | leaveLoop _ _ _ pc | stayInLoop _ _ pc | lockMemtask _ _ pc | testTrue _ _ pc
  | testFalse _ _ pc | sleepMemtask _ _ pc | takeMemtask _ _ _ _ pc | continueLoop _ _ pc
  | access _ _ _ pc | answer _ _ _ _ pc | joined _ pc =>
      exact inv.client (by rw [pc]; rfl) (by rw [pc]; rfl) (by simp) rfl rfl
  | busThrows c => exact absurd rfl (completes c)
  | spuriousClient c id pc =>
      exact inv.client (by simp only [pc]; rfl) (by simp only [pc]; rfl) (by simp [pc]) rfl rfl
  | notifyHandler _ _ _ _ _ notified | notifyMem _ _ _ _ _ _ _ notified =>
      have simulates := notifyMemtask_map ClientPc.simulates (fun _ => rfl) notified
      have flagged := notifyMemtask_map ClientPc.flagged (fun _ => rfl) notified
      obtain ⟨cv, client, rfl, woken⟩ := notifyMemtask_frame notified
      refine inv.frame simulates flagged (fun c cycles id result => ?_) rfl
      have result : client c = .getResult (.simulate cycles) id := result
      rcases woken c with same | ⟨_, _, lock⟩
      · exact inv.noResult c cycles id (same.symm.trans result)
      · simp [lock] at result
  | _ => exact inv.frame (fun _ => rfl) (fun _ => rfl) inv.noResult rfl

-----------------------------------------------------------------------------------------
-- The client behind a task
-----------------------------------------------------------------------------------------

/-- A client that holds a ticket waits for a task. -/
theorem ClientPc.current_of_ticket {pc : ClientPc} {id : Nat}
    (holds : pc.phase.ticket? = some id)
    : ∃ funct, pc.current = some (funct, id) := by
  cases pc <;> simp [ClientPc.phase, RequestServer.ClientPhase.ticket?, ClientPc.current] at holds ⊢ <;>
    exact holds

/-- A client that simulates waits for a Simulate task, if for any. -/
theorem ClientPc.current_of_simulates {pc : ClientPc} {funct : Funct} {id : Nat}
    (simulates : pc.simulates = true) (current : pc.current = some (funct, id))
    : funct = .simulate := by
  cases pc with
  | notifyTask op =>
      cases op <;> simp [ClientPc.simulates, ClientPc.inSimulate] at simulates
      simp_all [ClientPc.current, Operation.pyFunct]
  | _ => simp_all [ClientPc.simulates, ClientPc.inSimulate, ClientPc.current]

/-- Two posted tasks with one ticket are the same. -/
theorem WorkerInvariant.posted_unique (inv : WorkerInvariant s) {first second : ClientId × PythonTask}
    (one : first ∈ s.log.posted) (two : second ∈ s.log.posted)
    (same : first.2.result = second.2.result)
    : first = second := by
  obtain ⟨position, found⟩ := List.getElem?_of_mem one
  obtain ⟨other, also⟩ := List.getElem?_of_mem two
  rw [← inv.ticket_at found, same, inv.ticket_at also, also] at found
  exact (Option.some.inj found).symm

/-- The task that the worker has taken is that of its client's operation. -/
theorem CoreInvariant.funct_of_current (inv : CoreInvariant s) {task : PythonTask}
    (busy : s.worker.task? = some task) {c : ClientId} {funct : Funct}
    (current : (s.client c).current = some (funct, task.result))
    : task.pyFunct = funct := by
  have worker := inv.channel.worker
  obtain ⟨posted, member, rfl, result⟩ := inv.tickets c funct task.result current
  have taken : task ∈ s.log.taken ++ s.taskQueue := by
    rw [← worker.handling, busy]
    simp
  rw [worker.order] at taken
  obtain ⟨entry, also, rfl⟩ := List.mem_map.mp taken
  rw [← worker.posted_unique member also result]

/-- A task that the worker has not answered belongs to a client that waits for it. -/
theorem CoreInvariant.poster (inv : CoreInvariant s) (completed : s.log.abandoned = [])
    {task : PythonTask} (busy : s.worker.task? = some task)
    (unset : s.results task.result = none)
    : ∃ c, (s.client c).current = some (task.pyFunct, task.result) := by
  have worker := inv.channel.worker
  have channel := inv.channel.channel
  have taken : task ∈ s.log.taken ++ s.taskQueue := by
    rw [← worker.handling, busy]
    simp
  rw [worker.order] at taken
  obtain ⟨⟨c, _⟩, posted, rfl⟩ := List.mem_map.mp taken
  have owner := worker.posted_iff.mpr ⟨_, posted, rfl⟩
  have holds := channel.unanswered_held owner unset (by simp [State.taskChannel, completed])
  obtain ⟨funct, current⟩ := ClientPc.current_of_ticket holds
  obtain ⟨other, also, rfl, same⟩ := inv.tickets c funct _ current
  have equal := worker.posted_unique also posted same
  simp only [Prod.mk.injEq, true_and] at equal
  exact ⟨c, equal ▸ current⟩

/-- While a Simulate task is unanswered, its client is inside `simulate`. -/
theorem CompletingInvariant.simulating (inv : CompletingInvariant s) (flags : FlagInvariant s)
    {task : PythonTask} (busy : s.worker.task? = some task)
    (unset : s.results task.result = none) (simulate : task.pyFunct = .simulate)
    : ∃ c,
        (s.client c).current = some (.simulate, task.result)
        ∧ (s.client c).inSimulate = true := by
  obtain ⟨c, current⟩ := inv.core.poster inv.completed busy unset
  rw [simulate] at current
  refine ⟨c, current, ?_⟩
  cases pc : s.client c <;> simp [pc, ClientPc.current] at current <;> try rfl
  · next op id =>
      cases op <;> simp [Operation.pyFunct] at current
      rfl
  · next op id =>
      cases op <;> simp [Operation.pyFunct] at current
      exact absurd pc (flags.noResult c _ id)

/-- The invariants of a run with one simulation at a time. -/
structure SimulationInvariant (s : State π β) : Prop where
  completing : CompletingInvariant s
  flags : FlagInvariant s

/-- Every move of a run with one simulation at a time keeps the invariants. -/
theorem SimulationInvariant.moves (inv : SimulationInvariant s)
    (moved : (coreSystem vp).Moves simulationGuard s after)
    : SimulationInvariant after where
  completing := inv.completing.moves (moved.mono completingGuard_of_simulation)
  flags := by
    obtain ⟨label, allowed, stepped⟩ := moved
    refine inv.flags.move (step_move stepped) ?_ allowed.2
    rintro c rfl
    exact allowed.1

/-- The invariants hold before the constructor. -/
theorem SimulationInvariant.initial (py : π) (bus : β)
    : SimulationInvariant (State.initial py bus) where
  completing := .initial py bus
  flags := by
    constructor <;> simp [State.initial, ClientPc.simulates, ClientPc.flagged, ClientPc.inSimulate]

end VcmlPydrofoil
