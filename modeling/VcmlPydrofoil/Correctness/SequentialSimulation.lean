import VcmlPydrofoil.Correctness.DroppedAccess
import VcmlPydrofoil.MemoryChannel.Outcomes

/-! An operation of the core that runs alone does what the sequential reference does: its two
threads refine one, whatever the interleaving.
-/

namespace VcmlPydrofoil

open Interaction (Tree)

variable {π β : Type} {vp : Platform π β} {s after : State π β} {label : Label}

/-- Only the client of the simulation and the worker move, no bus access throws, and no
callback comes before the flag; in particular when the worker starts the task after the flag.
-/
def twoThreadGuard (s : State π β) (label : Label) : Prop :=
  (∀ c op, label ≠ .call c op) ∧ (∀ c, label ≠ .busThrows c) ∧ FlagFirst s label

/-- The two threads alone are a run with one simulation at a time. -/
theorem simulationGuard_of_twoThreads (s : State π β) (label : Label)
    (allowed : twoThreadGuard s label)
    : simulationGuard s label := by
  obtain ⟨noCall, completes, _⟩ := allowed
  refine ⟨?_, fun c cycles called => absurd called (noCall c _)⟩
  cases label with
  | call c op => exact absurd rfl (noCall c op)
  | busThrows c => exact absurd rfl (completes c)
  | _ => trivial

/-- The operations whose tasks a client has still to post. -/
def ClientPc.toPost : ClientPc → List Operation
  | .push op => op.tasks
  | .notifyTask (.construct _) _ | .getResult (.construct _) _ => [.readRegDbg 0 8]
  | _ => []

/-- What the operation of a client is going to return, from the value of its last task. -/
def ClientPc.returning (value : BitVec 64) : ClientPc → Returned
  | .push op | .notifyTask op _ | .getResult op _ => op.returned value
  | _ => .void

/-- A move other than a push goes on with the same operation. -/
structure SameOperation (s after : State π β) (c : ClientId) : Prop where
  busy : after.client c ≠ .idle
  toPost : (after.client c).toPost = (s.client c).toPost
  returning : ∀ value, (after.client c).returning value = (s.client c).returning value
  current : (after.client c).current = (s.client c).current ∨ (after.client c).current = none

/-- A client that stays where it is. -/
theorem SameOperation.refl {c : ClientId} (busy : s.client c ≠ .idle)
    (same : after.client c = s.client c)
    : SameOperation s after c where
  busy := same ▸ busy
  toPost := congrArg _ same
  returning := fun _ => congrArg _ same
  current := Or.inl (congrArg _ same)

/-- The one client inside an operation goes on with it, posts its task, or returns. -/
theorem Move.operation (move : Move vp s label after) {c : ClientId}
    (noCall : ∀ d op, label ≠ .call d op) (completes : ∀ d, label ≠ .busThrows d)
    (others : ∀ d, d ≠ c → s.client d = .idle) (busy : s.client c ≠ .idle)
    : (after.log.returned = s.log.returned ∧ SameOperation s after c)
      ∨ (∃ op, s.client c = .push op ∧ after = s.pushTask c op)
      ∨ after.client c = .idle
        ∧ ∃ value,
            after.log.returned = s.log.returned ++ [(c, (s.client c).returning value)]
            ∧ (s.client c).toPost = []
            ∧ ((∃ op id, s.client c = .getResult op id ∧ s.results id = some value)
              ∨ ∀ other, (s.client c).returning other = (s.client c).returning value) := by
  have mine {d : ClientId} (moves : s.client d ≠ .idle) : d = c := by
    by_contra different
    exact moves (others d different)
  cases move with
  | call d op => exact absurd rfl (noCall d op)
  | busThrows d => exact absurd rfl (completes d)
  | pushTask d op pc =>
      obtain rfl := mine (by simp [pc] : s.client d ≠ .idle)
      exact Or.inr (Or.inl ⟨op, pc, rfl⟩)
  | notifyTask d op id pc =>
      obtain rfl := mine (by simp [pc] : s.client d ≠ .idle)
      refine Or.inl ⟨rfl, ?_⟩
      constructor <;> cases op <;>
        simp [State.notifyTask, pc, ClientPc.toPost, ClientPc.returning, ClientPc.current,
          Operation.returned, Operation.pyFunct]
  | finish d op id value pc ready =>
      obtain rfl := mine (by simp [pc] : s.client d ≠ .idle)
      have client : (s.finish d op id value).client = Function.update s.client d op.next := by
        obtain ⟨counts, returned, same⟩ := finish_eq s d op id value
        rw [same]
      cases op with
      | construct | destruct =>
          refine Or.inl ⟨rfl, ?_⟩
          constructor <;>
            simp [client, pc, Operation.next, ClientPc.toPost, ClientPc.returning,
              ClientPc.current, Operation.returned, Operation.tasks]
      | _ =>
          refine Or.inr (Or.inr ⟨by simp [client, Operation.next], value, ?_, ?_,
            Or.inl ⟨_, id, pc, ready⟩⟩)
          · rw [pc]
            rfl
          · simp [pc, ClientPc.toPost]
  | clearSimStarted d pc =>
      obtain rfl := mine (by simp [pc] : s.client d ≠ .idle)
      refine Or.inr (Or.inr ⟨by simp [State.clearSimStarted, State.returns], 0, ?_, ?_, Or.inr ?_⟩)
      · simp [State.clearSimStarted, State.returns, pc, ClientPc.returning]
      · simp [pc, ClientPc.toPost]
      · simp [pc, ClientPc.returning]
  | joined d pc =>
      obtain rfl := mine (by simp [pc] : s.client d ≠ .idle)
      refine Or.inr (Or.inr ⟨by simp [State.returns], 0, ?_, ?_, Or.inr ?_⟩)
      · simp [State.returns, pc, ClientPc.returning]
      · simp [pc, ClientPc.toPost]
      · simp [pc, ClientPc.returning]
  | setSimStarted d _ _ pc | leaveLoop d _ _ pc | stayInLoop d _ pc | lockMemtask d _ pc
  | testTrue d _ pc | testFalse d _ pc | sleepMemtask d _ pc | takeMemtask d _ _ _ pc
  | continueLoop d _ pc | access d _ _ pc | answer d _ _ _ pc =>
      obtain rfl := mine (by simp [pc] : s.client d ≠ .idle)
      refine Or.inl ⟨rfl, ?_⟩
      constructor <;>
        simp [State.goto, State.leaveLoop, State.sleepMemtask, State.access, State.answer, pc,
          ClientPc.toPost, ClientPc.returning, ClientPc.current, Operation.returned,
          Operation.pyFunct]
  | spuriousClient d id pc =>
      obtain rfl := mine (by simp [pc] : s.client d ≠ .idle)
      refine Or.inl ⟨rfl, ?_⟩
      constructor <;>
        simp [State.wakeClient, pc, ClientPc.toPost, ClientPc.returning, ClientPc.current]
  | notifyHandler _ _ _ _ _ notified | notifyMem _ _ _ _ _ _ _ notified =>
      obtain ⟨cv, client, rfl, woken⟩ := notifyMemtask_frame notified
      refine Or.inl ⟨rfl, ?_⟩
      rcases woken c with same | ⟨id, asleep, lock⟩
      · exact .refl busy same
      · constructor <;>
          simp [asleep, lock, ClientPc.toPost, ClientPc.returning, ClientPc.current]
  | _ => exact Or.inl ⟨rfl, .refl busy rfl⟩

/-- While nobody is inside an operation, nothing returns. -/
theorem Move.returned_of_idle (move : Move vp s label after) (noCall : ∀ c op, label ≠ .call c op)
    (idle : ∀ c, s.client c = .idle)
    : after.log.returned = s.log.returned := by
  cases move with
  | call c op => exact absurd rfl (noCall c op)
  | finish c _ _ _ pc | clearSimStarted c pc | joined c pc => simp [idle c] at pc
  | notifyHandler _ _ _ _ _ notified | notifyMem _ _ _ _ _ _ _ notified =>
      obtain ⟨cv, client, rfl, _⟩ := notifyMemtask_frame notified
      rfl
  | _ => rfl

/-- The value of the newest task is the last one set. -/
theorem CompletingInvariant.value_of_newest (inv : CompletingInvariant s) (replied : Replied s)
    {id : Nat} {value : BitVec 64} (newest : id + 1 = s.nextTask)
    (set : s.results id = some value)
    : s.sequential.value = value := by
  have worker := inv.core.channel.worker
  obtain ⟨empty, answered⟩ := inv.answered replied
  have idle : s.taskChannel.server.working = [] := by
    cases busy : s.worker.task? with
    | none =>
        cases pc : s.worker <;> simp_all [State.taskChannel, WorkerPc.phase, WorkerPc.task?,
          RequestServer.ServerPhase.working]
    | some task =>
        have phase : s.taskChannel.server
            = if (s.results task.result).isSome then .settled task.result else .busy task.result :=
          WorkerPc.phase_task busy
        rw [phase, if_pos (answered task busy)]
        rfl
  have tickets : s.log.values.map Prod.fst = List.range s.nextTask := by
    have settled : s.log.values.map Prod.fst ++ s.taskChannel.server.working
        = s.log.taken.map PythonTask.result := inv.core.channel.channel.answers
    have order := worker.order
    rw [empty, List.append_nil] at order
    rw [idle, List.append_nil, order, List.map_map] at settled
    exact settled.trans worker.tickets
  have distinct : (s.log.values.map Prod.fst).Nodup := tickets ▸ List.nodup_range
  have last : (s.log.values.map Prod.fst).getLast? = some id := by
    rw [tickets, ← newest, List.range_succ, List.getLast?_concat]
  rw [List.getLast?_map] at last
  obtain ⟨⟨_, found⟩, member, rfl⟩ := Option.map_eq_some_iff.mp last
  have same := List.inj_on_of_nodup_map distinct (List.mem_of_getLast? member)
    (worker.values _ value set) rfl
  simp only [Prod.mk.injEq, true_and] at same
  simp [Sequential.value, State.sequential, List.getLast?_map, member, same]

-----------------------------------------------------------------------------------------
-- An operation from its call to its return
-----------------------------------------------------------------------------------------

/-- A run of one operation by the client `c`, which ends in the state `final` and returns
`reply` after what callers were told before.
-/
structure Operating (vp : Platform π β) (c : ClientId) (told : List (ClientId × Returned))
    (reply : Returned) (final : Sequential π β) (s : State π β) : Prop where
  sim : SimulationInvariant s
  services : ServiceInvariant s
  others : ∀ d, d ≠ c → s.client d = .idle
  newest : ∀ funct id, (s.client c).current = some (funct, id) → id + 1 = s.nextTask
  ends : ∃ current, Outcome vp s current ∧ final = current.handleAll vp (s.client c).toPost
  returned
    : (s.client c ≠ .idle
        ∧ (s.client c).returning final.value = reply
        ∧ s.log.returned = told)
      ∨ (s.client c = .idle ∧ s.log.returned = told ++ [(c, reply)])

variable {c : ClientId} {told : List (ClientId × Returned)} {reply : Returned}
  {final : Sequential π β}

/-- A callback finds the flag set exactly in a simulation, when no callback comes before it. -/
theorem Operating.keeps (run : Operating vp c told reply final s) (first : FlagFirst s label)
    : KeepsCallbacks s label := by
  intro wake task request next worker pc passed
  have core := run.sim.completing.core
  have coherent := core.channel.worker.coherent
  have busy : s.worker.task? = some task := by rw [pc]; rfl
  rw [pc] at coherent
  have unset := coherent.callback.1
  obtain ⟨d, current⟩ := core.poster run.sim.completing.completed busy unset
  have mine {e : ClientId} (working : s.client e ≠ .idle) : e = c := by
    by_contra different
    exact working (run.others e different)
  cases simulates : task.simulates with
  | true =>
      have simulate : task.pyFunct = .simulate := by simpa [PythonTask.simulates] using simulates
      rcases run.sim.flag_or_waiting busy unset simulate with started | ⟨d, steps, waits⟩
      · exact started
      · exact absurd waits (first wake task request next d steps worker pc passed)
  | false =>
      by_contra started
      obtain ⟨e, flagged⟩ := run.sim.flags.flag.mp (by simpa using started)
      have same : d = e :=
        (mine fun idle => by simp [idle, ClientPc.current] at current).trans
          (mine fun idle => by simp [idle, ClientPc.flagged, ClientPc.inSimulate] at flagged).symm
      have simulate := ClientPc.current_of_simulates (ClientPc.simulates_of_flagged flagged)
        (same ▸ current)
      simp [PythonTask.simulates, simulate] at simulates

/-- When the operation returns, every awaited reply is there. -/
theorem Operating.replied (run : Operating vp c told reply final s)
    (mine : ∀ id, (s.client c).phase.ticket? = some id → (s.results id).isSome)
    : Replied s := by
  intro d id waits
  by_cases same : d = c
  · exact mine id (same ▸ waits)
  · simp [run.others d same, ClientPc.phase, RequestServer.ClientPhase.ticket?] at waits

/-- A client that posts a task has posted the first of those that its operation still had to
post.
-/
theorem toPost_pushTask (s : State π β) (c : ClientId) (op : Operation)
    : op.tasks = op :: ((s.pushTask c op).client c).toPost := by
  cases op <;> simp [State.pushTask, Operation.tasks, ClientPc.toPost]

/-- Every move of the two threads goes on towards the same end. -/
theorem Operating.moves (run : Operating vp c told reply final s)
    (moved : (coreSystem vp).Moves twoThreadGuard s after)
    : Operating vp c told reply final after := by
  obtain ⟨label, allowed, stepped⟩ := moved
  have move := step_move stepped
  obtain ⟨noCall, completes, first⟩ := allowed
  have inv := run.sim.completing
  have sim := run.sim.moves
    (.of_step (simulationGuard_of_twoThreads s label ⟨noCall, completes, first⟩) stepped)
  have services := run.services.move inv.core.access move completes
  have others (d : ClientId) (different : d ≠ c) : after.client d = .idle :=
    idle_stays move (run.others d different) (fun op => noCall d op)
  obtain ⟨current, runs, ended⟩ := run.ends
  have stays (notPushed : ∀ op, s.client c = .push op → after ≠ s.pushTask c op)
      : Outcome vp after current ∧ after.nextTask = s.nextTask := by
    have nobody (d : ClientId) (op : Operation) (push : s.client d = .push op)
        (same : after = s.pushTask d op) : False := by
      by_cases mine : d = c
      · subst d
        exact notPushed op push same
      · simp [run.others d mine] at push
    constructor
    · rcases runs.move inv (run.keeps first) move completes with same | ⟨d, op, push, same, _⟩
      · exact same
      · exact (nobody d op push same).elim
    · rcases move.taskQueue with ⟨_, same⟩ | ⟨d, op, push, same⟩ | ⟨_, _, _, _, rfl⟩
      · exact same
      · exact (nobody d op push same).elim
      · rfl
  rcases run.returned with ⟨busy, returning, same⟩ | ⟨idle, same⟩
  · rcases move.operation noCall completes run.others busy with
      ⟨told, goesOn⟩ | ⟨op, push, rfl⟩ | ⟨idle, value, told, nothing, ready⟩
    · obtain ⟨keeps, next⟩ := stays fun op push pushed => by
        have posted := toPost_pushTask s c op
        rw [← pushed, goesOn.toPost, push] at posted
        simp [ClientPc.toPost] at posted
      refine ⟨sim, services, others, fun funct id holds => ?_, ⟨current, keeps, ?_⟩,
        Or.inl ⟨goesOn.busy, ?_, told.trans same⟩⟩
      · rcases goesOn.current with current | none
        · exact next ▸ run.newest funct id (current ▸ holds)
        · simp [none] at holds
      · rw [goesOn.toPost]
        exact ended
      · rw [goesOn.returning]
        exact returning
    · have posted := toPost_pushTask s c op
      refine ⟨sim, services, others, fun funct id holds => ?_, ⟨_, runs.pushTask push, ?_⟩,
        Or.inl ⟨?_, ?_, same⟩⟩
      · cases op <;> simp [State.pushTask, ClientPc.current] at holds ⊢ <;> exact holds.2.symm
      · rw [ended, push, ClientPc.toPost, posted]
        rfl
      · cases op <;> simp [State.pushTask]
      · rw [← returning, push]
        cases op <;> simp [State.pushTask, ClientPc.returning, Operation.returned]
    · obtain ⟨keeps, next⟩ := stays fun op push pushed => by
        cases op <;> simp [pushed, State.pushTask] at idle
      refine ⟨sim, services, others, by simp [idle, ClientPc.current], ⟨current, keeps, ?_⟩,
        Or.inr ⟨idle, ?_⟩⟩
      · rw [ended, nothing, idle]
        rfl
      · rw [told, same, ← returning]
        rcases ready with ⟨op, id, pc, set⟩ | void
        · have replied := run.replied fun ticket waits => by
            simp only [pc, ClientPc.phase, RequestServer.ClientPhase.ticket?,
              Option.some.injEq] at waits
            simp [← waits, set]
          have done : final = s.sequential := by
            rw [ended, nothing]
            exact (inv.outcome_iff replied).mp runs
          have newest := run.newest op.pyFunct id (by rw [pc]; rfl)
          rw [done, inv.value_of_newest replied newest set]
        · rw [void final.value]
  · have still := idle_stays move idle (fun op => noCall c op)
    obtain ⟨keeps, next⟩ := stays (by simp [idle])
    refine ⟨sim, services, others, by simp [still, ClientPc.current], ⟨current, keeps, ?_⟩,
      Or.inr ⟨still, ?_⟩⟩
    · rw [ended, idle, still]
    · rw [move.returned_of_idle noCall, same]
      intro d
      by_cases mine : d = c
      · exact mine ▸ idle
      · exact run.others d mine

-----------------------------------------------------------------------------------------
-- The refinement
-----------------------------------------------------------------------------------------

/-- The services of a run in which operations complete. -/
theorem ServiceInvariant.reaches {py : π} {bus : β}
    (reached : (coreSystem vp).Reaches simulationGuard (State.initial py bus) s)
    : SimulationInvariant s ∧ ServiceInvariant s := by
  have kept (before after : State π β) (inv : SimulationInvariant before ∧ ServiceInvariant before)
      (moved : (coreSystem vp).Moves simulationGuard before after)
      : SimulationInvariant after ∧ ServiceInvariant after := by
    obtain ⟨label, allowed, stepped⟩ := moved
    refine ⟨inv.1.moves (.of_step allowed stepped), ?_⟩
    refine inv.2.move inv.1.completing.core.access (step_move stepped) ?_
    rintro c rfl
    exact allowed.1
  exact reached.invariant kept ⟨.initial py bus, .initial py bus⟩


/-- An operation without a task returns at once; the destructor goes on to its join. -/
theorem call_returned (s : State π β) (c : ClientId) (op : Operation)
    (refused : s.sequential.posts op = false)
    : (s.call c op).log.returned
      = s.log.returned ++ (if op = .destruct then [] else [(c, op.refused)]) := by
  have posts (other : op ≠ .cycleCount)
      : { s with lifetime := s.lifetime.called op }.posts op = false := by
    cases op <;> first | exact refused | exact absurd rfl other
  cases op with
  | readRegDbg | writeRegDbg | destruct =>
      simp only [State.call, posts (by simp), Bool.false_eq_true, ↓reduceIte]
      first | rfl | exact (List.append_nil _).symm
  | _ => exact absurd refused.symm Bool.false_ne_true

/-- While nobody is inside an operation, `sim_started` is not set. -/
theorem SimulationInvariant.posts_of_idle (sim : SimulationInvariant s)
    (idle : ∀ c, s.client c = .idle) (op : Operation)
    : s.posts op = s.sequential.posts op := by
  have notStarted : s.simStarted = false := by
    by_contra started
    obtain ⟨c, flagged⟩ := sim.flags.flag.mp (by simpa using started)
    simp [idle c, ClientPc.flagged, ClientPc.inSimulate] at flagged
  cases op with
  | cycleCount =>
      show (!s.simStarted) = true
      rw [notStarted]
      rfl
  | _ => rfl

/-- A call begins the operation, or is already its end. -/
theorem SimulationInvariant.operating (sim : SimulationInvariant s) (services : ServiceInvariant s)
    (idle : ∀ c, s.client c = .idle) (c : ClientId) {op : Operation}
    (allowed : lifetimeGuard s (.call c op))
    : Operating vp c s.log.returned (s.sequential.perform vp op).1 (s.sequential.perform vp op).2
        (s.call c op) := by
  have stepped : (coreSystem vp).step s (.call c op) = some (s.call c op) :=
    (step_eq sim.completing.not_aborted _).trans (by simp only [State.threadStep, idle c])
  have guard : simulationGuard s (.call c op) :=
    ⟨allowed, fun _ _ _ d => by rw [idle d]; rfl⟩
  have called := sim.moves (.of_step guard stepped)
  have move : Move vp s (.call c op) (s.call c op) := .call c op (idle c)
  have served := services.move sim.completing.core.access move (by simp)
  have posts := sim.posts_of_idle idle op
  have others (d : ClientId) (different : d ≠ c) : (s.call c op).client d = .idle :=
    idle_stays move (idle d) (fun _ same => by
      simp only [Label.call.injEq] at same
      exact different same.1.symm)
  obtain ⟨pc, started, _, _, _, client⟩ := call_started s op (idle c)
  have mine : (s.call c op).client c = pc := by rw [client, Function.update_self]
  have sequential : (s.call c op).sequential = s.sequential := by
    rcases call_cases s c op (idle c) with ⟨_, same⟩ | ⟨_, _, _, same⟩ <;> rw [same] <;> rfl
  have rests (d : ClientId) : ((s.call c op).client d).phase = .idle := by
    by_cases same : d = c
    · subst d
      rw [mine]
      rcases started with ⟨_, rfl⟩ | ⟨_, rfl⟩
      · rfl
      · cases op <;> rfl
    · rw [others d same]
      rfl
  have runs : Outcome vp (s.call c op) s.sequential :=
    (called.completing.outcome_iff (.of_idle rests)).mpr sequential.symm
  have current : pc.current = none := by
    rcases started with ⟨_, rfl⟩ | ⟨_, rfl⟩
    · rfl
    · cases op <;> rfl
  refine ⟨called, served, others, by simp [mine, current], ⟨_, runs, ?_⟩, ?_⟩
  · rw [mine, Sequential.perform, ← posts]
    rcases started with ⟨yes, rfl⟩ | ⟨no, rfl⟩
    · simp only [yes, ↓reduceIte, ClientPc.toPost]
    · simp only [no, Bool.false_eq_true, ↓reduceIte]
      cases op <;> rfl
  · rw [mine, Sequential.perform, ← posts]
    rcases started with ⟨yes, rfl⟩ | ⟨no, rfl⟩
    · simp only [yes, ↓reduceIte]
      refine Or.inl ⟨by simp, rfl, ?_⟩
      rcases call_cases s c op (idle c) with ⟨_, same⟩ | ⟨refused, _⟩
      · rw [same]
      · simp [yes] at refused
    · have told := call_returned s c op (posts ▸ no)
      simp only [no, Bool.false_eq_true, ↓reduceIte]
      cases op with
      | destruct => exact Or.inl ⟨by simp [Operation.withoutTask], rfl, by simpa using told⟩
      | _ => exact Or.inr ⟨rfl, by simpa using told⟩

/-- The one operation of a run keeps going towards its end. -/
theorem Operating.reaches {op : Operation} (sim : SimulationInvariant s)
    (services : ServiceInvariant s) (idle : ∀ c, s.client c = .idle)
    (allowed : lifetimeGuard s (.call c op)) {s' : State π β}
    (ran : (coreSystem vp).Reaches twoThreadGuard (s.call c op) s')
    : Operating vp c s.log.returned (s.sequential.perform vp op).1 (s.sequential.perform vp op).2
        s' :=
  ran.invariant (fun _ _ run moved => run.moves moved) (sim.operating services idle c allowed)

/-- An operation that has returned leaves the state of the sequential reference, and nothing in
flight.
-/
theorem Operating.finished (run : Operating vp c told reply final s)
    (returned : s.client c = .idle)
    : s.sequential = final
      ∧ s.log.returned = told ++ [(c, reply)]
      ∧ s.worker.pending = none := by
  have quiet (d : ClientId) : (s.client d).phase = .idle := by
    by_cases mine : d = c
    · simp [mine, returned, ClientPc.phase]
    · simp [run.others d mine, ClientPc.phase]
  obtain ⟨current, runs, ended⟩ := run.ends
  refine ⟨?_, ?_, ?_⟩
  · rw [ended, returned, (run.sim.completing.outcome_iff (.of_idle quiet)).mp runs]
    rfl
  · rcases run.returned with ⟨busy, _⟩ | ⟨_, same⟩
    · exact absurd returned busy
    · exact same
  · rcases (run.sim.completing.resting (.of_idle quiet)).2 with free | ⟨task, script, pc, _⟩
    · cases pc : s.worker <;> simp_all [WorkerPc.task?, WorkerPc.pending]
    · rw [pc]
      rfl

/-- From any state in which nobody is inside an operation, an operation that runs alone returns
what the sequential reference returns, and leaves its state.
-/
theorem operation_refines_sequential (vp : Platform π β) (py : π) (bus : β) {s s' : State π β}
    (reached : (coreSystem vp).Reaches simulationGuard (State.initial py bus) s)
    (idle : ∀ c, s.client c = .idle) (c : ClientId) (op : Operation)
    (allowed : lifetimeGuard s (.call c op))
    (ran : (coreSystem vp).Reaches twoThreadGuard (s.call c op) s')
    (returned : s'.client c = .idle)
    : s'.sequential = (s.sequential.perform vp op).2
      ∧ s'.log.returned = s.log.returned ++ [(c, (s.sequential.perform vp op).1)] := by
  obtain ⟨sim, services⟩ := ServiceInvariant.reaches reached
  obtain ⟨same, told, _⟩ := (Operating.reaches sim services idle allowed ran).finished returned
  exact ⟨same, told⟩

-----------------------------------------------------------------------------------------
-- Simulations
-----------------------------------------------------------------------------------------

/-- What has become of the posted accesses. -/
structure ServedOnce (s : State π β) : Prop where
  queue : s.memtaskQueue.length ≤ 1
  distinct : s.log.requested.Nodup
  served : s.log.served <+: s.log.requested
  answered : s.log.answered <+: s.log.served
  inFlight : s.log.requested.length ≤ s.log.answered.length + 1

/-- Posted accesses are numbered, so each of them is served and answered once. -/
theorem ServiceInvariant.servedOnce (services : ServiceInvariant s) (access : AccessInvariant s)
    : ServedOnce s := by
  obtain ⟨served, answered, inFlight⟩ := services.phase.once
  exact {
    queue := access.phase.queue_length_le_one
    distinct := services.numbered ▸ List.nodup_range
    served, answered, inFlight
  }

/-- From any state in which nobody is inside an operation, `simulate(cycles)` serves every
posted access once, and when it returns, the bus accesses, the replies to all callbacks, the
CPU and `n_cycles` are those of the sequential reference.
-/
theorem simulate_refines_sequential (vp : Platform π β) (py : π) (bus : β) {s s' : State π β}
    (reached : (coreSystem vp).Reaches simulationGuard (State.initial py bus) s)
    (alive : s.lifetime = .alive) (idle : ∀ c, s.client c = .idle) (c : ClientId)
    (cycles : BitVec 64)
    (ran : (coreSystem vp).Reaches twoThreadGuard (s.call c (.simulate cycles)) s')
    : ServedOnce s'
      ∧ (s'.client c = .idle
        → s'.sequential = s.sequential.simulate vp cycles
          ∧ s'.log.served = s'.log.requested ∧ s'.log.answered = s'.log.requested) := by
  obtain ⟨sim, services⟩ := ServiceInvariant.reaches reached
  have run : Operating vp c s.log.returned _ _ s' :=
    .reaches sim services idle (show lifetimeGuard s (.call c (.simulate cycles)) from alive) ran
  refine ⟨run.services.servedOnce run.sim.completing.core.access, fun returned => ?_⟩
  obtain ⟨same, _, pending⟩ := run.finished returned
  exact ⟨same, run.services.phase.complete pending⟩

/-- The check of the two threads for runs of the clients below `clients`. -/
def twoThreadCheck (clients : Nat) (s : State π β) : Label → Bool
  | .call _ _ | .busThrows _ => false
  | .worker _ =>
      (List.range clients).all (fun d => !(s.client d matches .setSimStarted _ _))
  | _ => true

/-- A checked label is one of the two threads, with the flag before the worker. -/
theorem twoThreadCheck_sound {clients : Nat} (s : State π β) (label : Label)
    (unused : s.Unused clients) (checked : twoThreadCheck clients s label = true)
    : twoThreadGuard s label := by
  refine ⟨?_, ?_, ?_⟩
  · rintro c op rfl
    simp [twoThreadCheck] at checked
  · rintro c rfl
    simp [twoThreadCheck] at checked
  · rintro wake task request next c cycles rfl _ _ waits
    have := unused.all checked (fun d idle => by rw [idle]; rfl) c
    simp [waits] at this

/-- The labels of a simulation with one access, up to its return. -/
def servedLabels : List Label :=
  List.replicate 3 (.client 0) ++ List.replicate 8 (.worker 0) ++ List.replicate 6 (.client 0)
    ++ List.replicate 7 (.worker 0) ++ List.replicate 2 (.client 0)

/-- Witness: a simulation of one store returns, and the store is on the bus. -/
theorem simulate_refines_sequential_store
    : ∃ s s' : State Unit Unit,
        s.log.accesses = []
        ∧ s'.log.accesses.length = 1
        ∧ s'.client 0 = .idle
        ∧ s'.sequential
          = s.sequential.simulate (scriptedPlatform (some 1) [sampleStore]) 1 := by
  let system := coreSystem (scriptedPlatform (some 1) [sampleStore])
  have ran
      : (system.runChecked (sequentialCheck 1) (State.initial () ()) constructionLabels).bind
          (fun s =>
            (system.runChecked (twoThreadCheck 1) (s.call 0 (.simulate 1)) servedLabels).map
              (fun s' => ((s.log.accesses, s.lifetime, s.allIdle 1),
                s'.log.accesses.length, s'.client 0)))
        = some (([], .alive, true), 1, .idle) := by
    decide
  obtain ⟨s, constructed, rest⟩ := Option.bind_eq_some_iff.mp ran
  obtain ⟨s', executed, same⟩ := Option.map_eq_some_iff.mp rest
  simp only [Prod.mk.injEq] at same
  obtain ⟨⟨none, alive, idle⟩, one, returned⟩ := same
  obtain ⟨reached, unused⟩ := sequential_reaches constructed
  have allIdle := unused.allIdle idle
  obtain ⟨run, admitted, _⟩ := Transition.System.runChecked_run twoThreadCheck_sound
    (fun before label after unused checked stepped => by
      intro d beyond
      exact idle_stays (step_move stepped) (unused d beyond)
        (fun op => (twoThreadCheck_sound before label unused checked).1 d op))
    (unused.call (by decide) (allIdle 0) (.simulate 1)) executed
  refine ⟨s, s', none, one, returned, ?_⟩
  exact ((simulate_refines_sequential _ () () (reached.mono simulationGuard_of_sequential) alive
    allIdle 0 1 (Transition.System.run_reaches run admitted)).2 returned).1

end VcmlPydrofoil
