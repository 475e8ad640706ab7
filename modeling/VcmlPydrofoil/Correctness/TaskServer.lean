import VcmlPydrofoil.MemoryChannel.Exceptions
import VcmlPydrofoil.TaskChannel.Lifetime

/-! The Python task channel is a correct request/response server, for any number of clients
and every interleaving with the worker.
-/

namespace VcmlPydrofoil

open Interaction (Tree)

variable {π β : Type} {vp : Platform π β} {s : State π β}

/-- Calls of plugin functions that start and end one after the other; the last may be open. -/
def NeverOverlap (calls : List ApiEvent) (entered : List ApiFunction) : Prop :=
  ∃ (finished : List ApiFunction) (current : Option ApiFunction),
    calls = finished.flatMap ApiFunction.bracket ++ current.toList.map ApiEvent.enter
    ∧ entered = finished ++ current.toList

/-- Allocation is the first call and happens once; the CPU is freed at most once, at the end. -/
def AllocateToFree (entered : List ApiFunction) : Prop :=
  entered = []
  ∨ ∃ middle,
      .allocateCpu ∉ middle ∧ .freeCpu ∉ middle
      ∧ (entered = .allocateCpu :: middle ∨ entered = .allocateCpu :: middle ++ [.freeCpu])

/-- A prefix of finished calls never overlaps, by induction on the calls. -/
theorem neverOverlap_of_prefix {calls : List ApiEvent} {functions : List ApiFunction}
    (begun : calls <+: functions.flatMap ApiFunction.bracket)
    : ∃ entered, NeverOverlap calls entered ∧ entered <+: functions := by
  induction functions generalizing calls with
  | nil =>
      obtain rfl := List.prefix_nil.mp begun
      exact ⟨[], ⟨[], none, rfl, rfl⟩, List.nil_prefix⟩
  | cons function rest ih =>
      match calls, begun with
      | [], _ => exact ⟨[], ⟨[], none, rfl, rfl⟩, List.nil_prefix⟩
      | [first], begun =>
          obtain ⟨rfl, _⟩ := List.cons_prefix_cons.mp begun
          exact ⟨[function], ⟨[], some function, rfl, rfl⟩, List.prefix_append [function] rest⟩
      | first :: second :: more, begun =>
          obtain ⟨rfl, left⟩ := List.cons_prefix_cons.mp begun
          obtain ⟨rfl, later⟩ := List.cons_prefix_cons.mp left
          obtain ⟨entered, ⟨finished, current, made, same⟩, shorter⟩ := ih later
          refine ⟨function :: entered, ⟨function :: finished, current, ?_, ?_⟩,
            List.cons_prefix_cons.mpr ⟨rfl, shorter⟩⟩
          · simp [made, ApiFunction.bracket]
          · simp [same]

/-- Tasks other than the constructor's and the destructor's neither allocate nor free. -/
theorem calls_middle {middle : List Funct} (noInit : .init ∉ middle) (noFree : .freeCpu ∉ middle)
    : .allocateCpu ∉ middle.flatMap Funct.calls ∧ .freeCpu ∉ middle.flatMap Funct.calls := by
  have inner (funct : Funct) (member : funct ∈ middle)
      : .allocateCpu ∉ funct.calls ∧ .freeCpu ∉ funct.calls := by
    have notInit : funct ≠ .init := fun same => noInit (same ▸ member)
    have notFree : funct ≠ .freeCpu := fun same => noFree (same ▸ member)
    cases funct <;> simp_all [Funct.calls]
  simp only [List.mem_flatMap, not_exists, not_and]
  exact ⟨fun funct member => (inner funct member).1, fun funct member => (inner funct member).2⟩

/-- The calls entered so far lie between allocation and release when the tasks do. -/
theorem allocateToFree_of_prefix {functs : List Funct} {entered : List ApiFunction}
    (shape : functs = [] ∨ Ended functs) (begun : entered <+: functs.flatMap Funct.calls)
    : AllocateToFree entered := by
  rcases shape with rfl | ended
  · exact Or.inl (List.prefix_nil.mp begun)
  cases entered with
  | nil => exact Or.inl rfl
  | cons first rest =>
      right
      rcases ended with ⟨middle, rfl, noInit, noFree⟩ | ⟨_, rfl, middle, rfl, noInit, noFree⟩
      · obtain ⟨noAllocate, noRelease⟩ := calls_middle noInit noFree
        simp only [List.flatMap_cons, Funct.calls, List.singleton_append] at begun
        obtain ⟨rfl, later⟩ := List.cons_prefix_cons.mp begun
        exact ⟨rest, fun member => noAllocate (later.subset member),
          fun member => noRelease (later.subset member), Or.inl rfl⟩
      · obtain ⟨noAllocate, noRelease⟩ := calls_middle noInit noFree
        simp only [List.cons_append, List.flatMap_cons, List.flatMap_append, List.flatMap_nil,
          Funct.calls, List.nil_append, List.append_nil] at begun
        obtain ⟨rfl, later⟩ := List.cons_prefix_cons.mp begun
        rcases List.prefix_concat_iff.mp later with rfl | shorter
        · exact ⟨_, noAllocate, noRelease, Or.inr rfl⟩
        · exact ⟨rest, fun member => noAllocate (shorter.subset member),
            fun member => noRelease (shorter.subset member), Or.inl rfl⟩

-----------------------------------------------------------------------------------------
-- The server
-----------------------------------------------------------------------------------------

/-- What callers and the plugin may rely on. -/
structure TaskServer (s : State π β) : Prop where
  /-- Every posted task is handled, being handled or queued, and there is nothing else: none is
  lost, none is handled twice, and they are taken in posting order. -/
  exactlyOnce
    : s.log.handled ++ s.worker.task?.toList ++ s.taskQueue = s.log.posted.map Prod.snd
  taken : s.log.handled ++ s.worker.task?.toList = s.log.taken
  distinct : (s.log.posted.map (fun entry => entry.2.result)).Nodup
  /-- A handler extracts the alternative that the operation of its poster stored. -/
  arguments
    : ∀ entry ∈ s.log.posted,
        entry.2.WellTyped ∧ ∃ op : Operation, entry.2 = op.task entry.2.result
  noBadAccess : ∀ task next, s.worker ≠ .handler task (.ask .badVariantAccess next)
  /-- A handler sets its promise once: the handled tasks have, the current one may have. -/
  promises
    : ∃ current,
        current <+: s.worker.task?.toList
        ∧ s.log.values.map Prod.fst = (s.log.handled ++ current).map PythonTask.result
  /-- A client collects the value of a task that it posted itself, and each value once. -/
  ownValue
    : ∀ c id value,
        (c, id, value) ∈ s.log.received
        → (id, value) ∈ s.log.values
          ∧ ∃ task, (c, task) ∈ s.log.posted ∧ task.result = id
  ownTask
    : ∀ c funct id,
        (s.client c).current = some (funct, id)
        → ∃ task, (c, task) ∈ s.log.posted ∧ task.pyFunct = funct ∧ task.result = id
  collectedOnce : (s.log.received.map (fun entry => entry.2.1)).Nodup
  /-- A poster waits for its value, has it, or was left by an exception. -/
  collected
    : ∀ c task,
        (c, task) ∈ s.log.posted
        → (s.client c).phase.ticket? = some task.result
          ∨ (∃ value, (c, task.result, value) ∈ s.log.received)
          ∨ task.result ∈ s.log.abandoned
  calls : ∃ entered, NeverOverlap s.log.calls entered ∧ AllocateToFree entered
  singleClient : ∀ c, (∀ entry ∈ s.log.posted, entry.1 = c) → s.taskQueue.length ≤ 1
  /-- A worker asleep on a non-empty queue has a notification coming. -/
  notified
    : s.worker = .asleep
      → s.taskQueue ≠ []
      → ∃ c id,
          (∃ op, s.client c = .notifyTask op id) ∨ ∃ cycles, s.client c = .setSimStarted cycles id

/-- The calls made are a prefix of the calls of the posted tasks. -/
theorem WorkerInvariant.calls_prefix (inv : WorkerInvariant s)
    : s.log.calls <+: (s.postedFuncts.flatMap Funct.calls).flatMap ApiFunction.bracket := by
  have begun : s.log.calls <+: s.log.taken.flatMap (fun task => task.pyFunct.events) :=
    inv.coherent.begun
  have taken : s.log.taken.flatMap (fun task => task.pyFunct.events)
      <+: (s.log.taken ++ s.taskQueue).flatMap (fun task => task.pyFunct.events) := by
    rw [List.flatMap_append]
    exact List.prefix_append _ _
  have same : (s.log.taken ++ s.taskQueue).flatMap (fun task => task.pyFunct.events)
      = (s.postedFuncts.flatMap Funct.calls).flatMap ApiFunction.bracket := by
    rw [inv.order, State.postedFuncts, List.flatMap_assoc, List.flatMap_map, List.flatMap_map]
    rfl
  exact same ▸ begun.trans taken

/-- The promises that are set are those of the handled tasks and perhaps the current one. -/
theorem ChannelInvariant.promises (inv : ChannelInvariant s)
    : ∃ current,
        current <+: s.worker.task?.toList
        ∧ s.log.values.map Prod.fst = (s.log.handled ++ current).map PythonTask.result := by
  have answers : s.log.values.map Prod.fst ++ s.taskChannel.server.working
      = s.log.taken.map PythonTask.result := inv.channel.answers
  cases busy : s.worker.task? with
  | none =>
      have idle : s.taskChannel.server.working = [] := by
        cases pc : s.worker <;> simp_all [State.taskChannel, WorkerPc.phase, WorkerPc.task?,
          RequestServer.ServerPhase.working]
      refine ⟨[], List.nil_prefix, ?_⟩
      rw [idle, ← inv.worker.handling, busy] at answers
      simpa using answers
  | some task =>
      have phase : s.taskChannel.server
          = if (s.results task.result).isSome then .settled task.result else .busy task.result :=
        WorkerPc.phase_task busy
      rw [phase, ← inv.worker.handling, busy] at answers
      split at answers
      · exact ⟨[task], List.prefix_refl _, by simpa [RequestServer.ServerPhase.working] using answers⟩
      · exact ⟨[], List.nil_prefix, by simpa [RequestServer.ServerPhase.working] using answers⟩

/-- The core refines the abstract server: in every run, whatever its callers, its bus and its
plugin do, the task channel is in a state that the server reaches.
-/
theorem taskChannel_refines (vp : Platform π β) (py : π) (bus : β)
    {guard : Transition.Guard (State π β) Label} {s : State π β}
    (reached : (coreSystem vp).Reaches guard (State.initial py bus) s)
    : Relation.ReflTransGen RequestServer.Step (State.initial py bus).taskChannel s.taskChannel := by
  have kept (before after : State π β) (inv : CoreInvariant before)
      (moved : (coreSystem vp).Moves guard before after)
      : CoreInvariant after := by
    obtain ⟨label, _, stepped⟩ := moved
    exact inv.move (step_move stepped)
  refine reached.simulates kept (fun before after inv moved => ?_) (.initial py bus)
  obtain ⟨label, _, stepped⟩ := moved
  rcases (step_move stepped).taskChannel inv.channel.worker inv.channel.channel with same | step
  · rw [same]
  · exact .single step

/-- In every run of any number of clients that respects the lifetime of the object, with or
without exceptions from the bus, the task channel serves its clients.
-/
theorem taskChannel_serves (vp : Platform π β) (py : π) (bus : β) {s : State π β}
    (reached : (coreSystem vp).Reaches lifetimeGuard (State.initial py bus) s)
    : TaskServer s := by
  have core : CoreInvariant s := CoreInvariant.reaches reached
  have lifetime : LifetimeInvariant s := LifetimeInvariant.reaches reached
  have worker := core.channel.worker
  have channel := core.channel.channel
  constructor
  case exactlyOnce => rw [worker.handling, worker.order]
  case taken => exact worker.handling
  case distinct =>
    rw [worker.tickets]
    exact List.nodup_range
  case arguments =>
    intro entry posted
    obtain ⟨op, same⟩ := worker.posters entry posted
    exact ⟨same ▸ op.task_wellTyped _, op, same⟩
  case noBadAccess =>
    intro task next pc
    have coherent := worker.coherent
    rw [pc] at coherent
    obtain ⟨_, _, pending, _⟩ := coherent.pending (by simp)
    cases pending
  case promises => exact core.channel.promises
  case ownValue =>
    intro c id value member
    obtain ⟨posted, set⟩ := channel.received c id value member
    exact ⟨worker.values id value set, worker.posted_iff.mp posted⟩
  case ownTask => exact core.tickets
  case collectedOnce => exact channel.collected
  case collected =>
    intro c task posted
    exact channel.held c task.result (worker.posted_iff.mpr ⟨task, posted, rfl⟩)
  case calls =>
    obtain ⟨entered, made, begun⟩ := neverOverlap_of_prefix worker.calls_prefix
    exact ⟨entered, made, allocateToFree_of_prefix lifetime.posted begun⟩
  case singleClient =>
    intro c single
    have only : ∀ other ∈ s.taskChannel.posted, other = c := by
      intro other member
      obtain ⟨entry, posted, rfl⟩ := List.mem_map.mp member
      exact single entry posted
    have short := channel.queue_length_le_one c only (core.exceptions.taken c single)
    simpa [State.taskChannel] using short
  case notified =>
    intro asleep queued
    have sleeping : s.taskChannel.server = .asleep := by rw [State.taskChannel, asleep]; rfl
    obtain ⟨c, id, posted⟩ := channel.awake sleeping (by simpa [State.taskChannel] using queued)
    refine ⟨c, id, ?_⟩
    simp only [State.taskChannel] at posted
    cases pc : s.client c <;> simp [pc, ClientPc.phase] at posted
    · exact Or.inr ⟨_, by rw [posted]⟩
    · exact Or.inl ⟨_, by rw [posted]⟩

/-- Witness: a client constructs the core, and then two clients call it at the same time. -/
theorem taskChannel_serves_twoClients
    : ∃ s : State Unit Unit,
        s.log.posted.map (fun entry => (entry.1, entry.2.pyFunct))
          = [(0, .init), (0, .readPc), (1, .getCycles), (0, .simulate)]
        ∧ s.taskQueue.length = 2
        ∧ TaskServer s := by
  let labels :=
    constructionLabels
      ++ [.call 1 .cycleCount, .call 0 (.simulate 5), .client 1, .client 0]
  have ran
      : ((coreSystem (scriptedPlatform (some 1) [])).runChecked (lifetimeCheck 2)
          (State.initial () ()) labels).map
            (fun s => (s.log.posted.map (fun entry => (entry.1, entry.2.pyFunct)),
              s.taskQueue.length))
        = some ([(0, .init), (0, .readPc), (1, .getCycles), (0, .simulate)], 2) := by
    decide
  obtain ⟨s, reached, same⟩ := Option.map_eq_some_iff.mp ran
  simp only [Prod.mk.injEq] at same
  exact ⟨s, same.1, same.2, taskChannel_serves _ () () (lifetime_reaches reached)⟩

end VcmlPydrofoil
