import VcmlPydrofoil.MemoryChannel.Outcomes

/-! The core is linearizable. However many callers there are and however their threads interleave
with the worker, all that callers, plugin and bus have seen is the beginning of what one thread
does that handles the tasks in the order in which they were posted.
-/

namespace VcmlPydrofoil

open Interaction (Tree)

variable {π β γ : Type} {vp : Platform π β} {s after : State π β} {label : Label}
  {outcome : Sequential π β}

namespace Sequential

-----------------------------------------------------------------------------------------
-- Histories
-----------------------------------------------------------------------------------------

/-- The reference before the constructor. -/
def initial (py : π) (bus : β) : Sequential π β := (State.initial py bus).sequential

/-- Handle these tasks, in order. -/
def handleTasks (vp : Platform π β) (tasks : List PythonTask) (state : Sequential π β)
    : Sequential π β :=
  tasks.foldl (Sequential.handle vp) state

/-- What one state has seen is the beginning of what another has, perhaps on another bus. -/
structure Precedes (first : Sequential π β) (second : Sequential π γ) : Prop where
  accesses : first.accesses <+: second.accesses
  callbacks : first.callbacks <+: second.callbacks
  values : first.values <+: second.values

theorem Precedes.refl (state : Sequential π β) : state.Precedes state :=
  ⟨List.prefix_refl _, List.prefix_refl _, List.prefix_refl _⟩

theorem Precedes.trans {first second : Sequential π β} {third : Sequential π γ}
    (one : first.Precedes second) (two : second.Precedes third)
    : first.Precedes third :=
  ⟨one.accesses.trans two.accesses, one.callbacks.trans two.callbacks,
    one.values.trans two.values⟩

/-- A callback sets no promise, and its access and its return are the last in their histories. -/
theorem callback_precedes (vp : Platform π β) (started : Bool) (state : Sequential π β)
    (request : MemCallback)
    : state.Precedes (state.callback vp started request).2
      ∧ (state.callback vp started request).2.values = state.values := by
  unfold callback
  split
  · exact ⟨⟨List.prefix_refl _, List.prefix_append _ _, List.prefix_refl _⟩, rfl⟩
  · split
    · exact ⟨⟨List.prefix_refl _, List.prefix_append _ _, List.prefix_refl _⟩, rfl⟩
    · exact ⟨⟨List.prefix_append _ _, List.prefix_append _ _, List.prefix_refl _⟩, rfl⟩

/-- An action of a handler only adds to the histories. -/
theorem answer_precedes (vp : Platform π β) (started : Bool) (state : Sequential π β)
    (instr : Instr π)
    : state.Precedes (state.answer vp started instr).2 := by
  cases instr with
  | callback request => exact (callback_precedes vp started state request).1
  | setValue value => exact ⟨List.prefix_refl _, List.prefix_refl _, List.prefix_append _ _⟩
  | _ => exact ⟨List.prefix_refl _, List.prefix_refl _, List.prefix_refl _⟩

/-- So does the rest of a handler. -/
theorem follow_precedes (vp : Platform π β) (started : Bool) (state : Sequential π β)
    (script : Script π)
    : state.Precedes (state.follow vp started script) :=
  Tree.run_keeps state.Precedes
    (fun reached instr precedes => precedes.trans (answer_precedes vp started reached instr))
    script state (.refl state)

/-- So do tasks, by induction on them. -/
theorem handleTasks_precedes (vp : Platform π β) (tasks : List PythonTask) (state : Sequential π β)
    : state.Precedes (state.handleTasks vp tasks) := by
  induction tasks generalizing state with
  | nil => exact .refl state
  | cons task rest ih => exact (follow_precedes vp _ state _).trans (ih (state.handle vp task))

/-- A script that has its promise still to set sets it once, by induction on the script. -/
theorem follow_values {funct : Funct} {events : List ApiEvent} {script : Script π}
    (pending : Script.Pending funct events script) (vp : Platform π β) (started : Bool)
    (state : Sequential π β)
    : ∃ value, (state.follow vp started script).values = state.values ++ [value] := by
  induction pending generalizing state with
  | callback request below ih =>
      obtain ⟨value, same⟩ := ih _ (state.callback vp started request).2
      refine ⟨value, ?_⟩
      rw [← (callback_precedes vp started state request).2]
      exact same
  | enter function below ih => exact ih state
  | leave function py below ih => exact ih { state with py }
  | storeCpu cpu init below ih => exact ih { state with cpu }
  | storeCycles cycles counts below ih => exact ih { state with nCycles := cycles }
  | setValue value below =>
      refine ⟨value, ?_⟩
      rw [follow_ask, below]
      cases funct <;> rfl

/-- Each task sets one promise, by induction on the tasks. -/
theorem handleTasks_values (vp : Platform π β) {tasks : List PythonTask} (state : Sequential π β)
    (typed : ∀ task ∈ tasks, task.WellTyped)
    : (state.handleTasks vp tasks).values.length = state.values.length + tasks.length := by
  induction tasks generalizing state with
  | nil => rfl
  | cons task rest ih =>
      obtain ⟨head, tail⟩ := List.forall_mem_cons.mp typed
      obtain ⟨value, same⟩ :=
        follow_values (createHandlers_pending vp.api state.cpu state.py head) vp task.simulates state
      have handled : (state.handle vp task).values = state.values ++ [value] := same
      have whole := ih (state.handle vp task) tail
      rw [handled, List.length_append, List.length_singleton] at whole
      rw [List.length_cons, Nat.add_comm rest.length, ← Nat.add_assoc]
      exact whole

/-- The promise of a task has the last value of the reference that handles it last. -/
theorem handleTasks_value (vp : Platform π β) (state : Sequential π β) (fresh : state.values = [])
    {tasks : List PythonTask} (typed : ∀ task ∈ tasks, task.WellTyped) {position : Nat}
    {value : BitVec 64} (set : (state.handleTasks vp tasks).values[position]? = some value)
    : (state.handleTasks vp (tasks.take (position + 1))).value = value := by
  have bound := (List.getElem?_eq_some_iff.mp set).1
  rw [handleTasks_values vp state typed, fresh, List.length_nil, Nat.zero_add] at bound
  have begun : (state.handleTasks vp (tasks.take (position + 1))).Precedes
      (state.handleTasks vp tasks) := by
    have whole := handleTasks_precedes vp (tasks.drop (position + 1))
      (state.handleTasks vp (tasks.take (position + 1)))
    unfold handleTasks at whole ⊢
    rwa [← List.foldl_append, List.take_append_drop] at whole
  have length : (state.handleTasks vp (tasks.take (position + 1))).values.length = position + 1 := by
    rw [handleTasks_values vp state fun task mem => typed task (List.mem_of_mem_take mem), fresh,
      List.length_take, List.length_nil, Nat.zero_add]
    omega
  obtain ⟨rest, same⟩ := begun.values
  rw [← same, List.getElem?_append_left (by omega)] at set
  rw [Sequential.value, List.getLast?_eq_getElem?, length, Nat.add_sub_cancel, set]
  rfl

end Sequential

-----------------------------------------------------------------------------------------
-- Runs
-----------------------------------------------------------------------------------------

/-- What has been seen is the beginning of what the outcome of the current task has seen. -/
theorem TaskOutcome.precedes (current : TaskOutcome vp s outcome)
    : s.sequential.Precedes outcome := by
  cases current with
  | idle _ same => exact same ▸ .refl _
  | dispatch task _ same => exact same ▸ Sequential.follow_precedes vp _ _ _
  | handler task script _ same => exact same ▸ Sequential.follow_precedes vp _ _ _
  | unserved task request next _ _ _ _ _ _ same =>
      exact same ▸ Sequential.follow_precedes vp _ _ _
  | served task request next _ success _ _ same =>
      have left : s.sequential.Precedes
          (s.sequential.leaveCallback request (callbackStatus success) s.destination) :=
        ⟨List.prefix_refl _, List.prefix_append _ _, List.prefix_refl _⟩
      exact same ▸ left.trans (Sequential.follow_precedes vp _ _ _)

/-- And of what the outcome of all the work has seen. -/
theorem Outcome.precedes (ends : Outcome vp s outcome) : s.sequential.Precedes outcome := by
  obtain ⟨current, runs, rfl⟩ := ends
  exact runs.precedes.trans (Sequential.handleTasks_precedes vp s.taskQueue current)

/-- The tasks posted so far, in order. -/
def State.postedTasks (s : State π β) : List PythonTask := s.log.posted.map Prod.snd

/-- Only a push posts a task. -/
theorem Move.posted (move : Move vp s label after)
    : after.log.posted = s.log.posted ∨ ∃ c op, s.client c = .push op ∧ after = s.pushTask c op := by
  cases move with
  | call c op pc =>
      rcases call_cases s c op pc with ⟨_, same⟩ | ⟨_, _, _, same⟩ <;> rw [same] <;> exact .inl rfl
  | pushTask c op pc => exact .inr ⟨c, op, pc, rfl⟩
  | finish c op id value =>
      obtain ⟨counts, returned, same⟩ := finish_eq s c op id value
      rw [same]
      exact .inl rfl
  | notifyHandler _ _ _ _ _ notified | notifyMem _ _ _ _ _ _ _ notified =>
      obtain ⟨cv, client, rfl, _⟩ := notifyMemtask_frame notified
      exact .inl rfl
  | _ => exact .inl rfl

/-- Operations complete, and each callback into the windows finds the flag that its task sets. -/
def linearGuard (s : State π β) (label : Label) : Prop :=
  completingGuard s label ∧ KeepsCallbacks s label

/-- The invariant of such runs: one thread is going to end where the posted tasks lead it. -/
structure Linearized (vp : Platform π β) (initially : Sequential π β) (s : State π β) : Prop where
  completing : CompletingInvariant s
  outcome : Outcome vp s (initially.handleTasks vp s.postedTasks)

/-- Every move keeps the invariant: a push adds its task at the end, and no other move changes
where the work ends.
-/
theorem Linearized.moves {initially : Sequential π β} (inv : Linearized vp initially s)
    (moved : (coreSystem vp).Moves linearGuard s after)
    : Linearized vp initially after := by
  refine ⟨inv.completing.moves (moved.mono fun _ _ allowed => allowed.1), ?_⟩
  obtain ⟨label, ⟨completing, keeps⟩, stepped⟩ := moved
  have move := step_move stepped
  rcases move.posted with same | ⟨c, op, pc, rfl⟩
  · rcases inv.outcome.move inv.completing keeps move (by rintro c rfl; exact completing) with
      ends | ⟨c, op, _, rfl, _⟩
    · rw [State.postedTasks, same]
      exact ends
    · exact absurd (congrArg List.length same) (by simp [State.pushTask])
  · have ends := inv.outcome.pushTask pc
    have posted : (s.pushTask c op).postedTasks = s.postedTasks ++ [op.task s.nextTask] :=
      List.map_append
    rw [posted, Sequential.handleTasks, List.foldl_append]
    exact ends

/-- Before the constructor nothing is posted. -/
theorem Linearized.initial (py : π) (bus : β)
    : Linearized vp (.initial py bus) (State.initial py bus) where
  completing := .initial py bus
  outcome := ⟨_, .idle rfl rfl, rfl⟩

/-- The promises are set in the order of their numbers. -/
theorem WorkerInvariant.value_at (inv : WorkerInvariant s)
    (answers
      : ∃ working, s.log.values.map Prod.fst ++ working = s.log.taken.map PythonTask.result)
    {id : Nat} {value : BitVec 64} (set : (id, value) ∈ s.log.values)
    : s.sequential.values[id]? = some value := by
  obtain ⟨working, settled⟩ := answers
  have tickets : (s.log.taken ++ s.taskQueue).map PythonTask.result = List.range s.nextTask := by
    rw [inv.order, List.map_map, ← inv.tickets]
    rfl
  rw [List.map_append, ← settled, List.append_assoc] at tickets
  obtain ⟨position, bound, at_position⟩ := List.getElem_of_mem set
  have first : (s.log.values.map Prod.fst)[position]? = some id := by
    rw [List.getElem?_map, List.getElem?_eq_getElem bound, at_position]
    rfl
  have numbered : (List.range s.nextTask)[position]? = some id := by
    rw [← tickets, List.getElem?_append_left (by simpa using bound), first]
  obtain ⟨_, same⟩ := List.getElem?_eq_some_iff.mp numbered
  rw [List.getElem_range] at same
  subst same
  rw [State.sequential, List.getElem?_map, List.getElem?_eq_getElem bound, at_position]
  rfl

/-- What one thread that handles the posted tasks in order says about a state that many threads
have reached.
-/
structure Linear (vp : Platform π γ) (initially : Sequential π γ) (s : State π β) : Prop where
  seen : s.sequential.Precedes (initially.handleTasks vp s.postedTasks)
  /-- A caller gets the value of its own task, from a reference in which exactly the tasks posted
  before this one came first. -/
  received
    : ∀ c id value,
        (c, id, value) ∈ s.log.received
        → (∃ task, s.log.posted[id]? = some (c, task))
          ∧ (initially.handleTasks vp (s.postedTasks.take (id + 1))).value = value

/-- Any number of callers at the same time get what they would get from one thread that handles
their tasks in the order of the posts, and leave its state when every reply is there.
-/
theorem core_linearizable (vp : Platform π β) (py : π) (bus : β) {s : State π β}
    (reached : (coreSystem vp).Reaches linearGuard (State.initial py bus) s)
    : Linear vp (.initial py bus) s
      ∧ (Replied s → s.sequential = (Sequential.initial py bus).handleTasks vp s.postedTasks) := by
  have inv : Linearized vp (.initial py bus) s :=
    reached.invariant (fun _ _ inv moved => inv.moves moved) (.initial py bus)
  have worker := inv.completing.core.channel.worker
  have channel := inv.completing.core.channel.channel
  refine ⟨⟨inv.outcome.precedes, ?_⟩, fun replied =>
    ((inv.completing.outcome_iff replied).mp inv.outcome).symm⟩
  intro c id value member
  obtain ⟨posted, replied⟩ := channel.received c id value member
  have set := worker.value_at ⟨_, channel.answers⟩ (worker.values id value replied)
  obtain ⟨entry, found, rfl⟩ := Option.map_eq_some_iff.mp
    ((List.getElem?_map ..).symm.trans posted)
  refine ⟨⟨entry.2, found⟩, Sequential.handleTasks_value vp _ rfl ?_ ?_⟩
  · intro task mem
    exact worker.typed (worker.order ▸ mem)
  · obtain ⟨rest, same⟩ := inv.outcome.precedes.values
    rw [← same, List.getElem?_append_left (List.getElem?_eq_some_iff.mp set).1]
    exact set

-----------------------------------------------------------------------------------------
-- A run
-----------------------------------------------------------------------------------------

/-- The guard of linearizable runs, for runs of the clients below `clients`. -/
def linearCheck (clients : Nat) (s : State π β) : Label → Bool
  | .busThrows _ => false
  | .worker _ =>
      match s.worker with
      | .handler task (.ask (.callback request) _) =>
          !accepted request.address || s.simStarted == task.simulates
      | _ => true
  | label => lifetimeCheck clients s label

/-- A checked label is one of a linearizable run. -/
theorem linearCheck_sound {clients : Nat} (s : State π β) (label : Label)
    (unused : s.Unused clients) (checked : linearCheck clients s label = true)
    : linearGuard s label := by
  constructor
  · cases label with
    | call c op => exact lifetimeCheck_sound s _ unused checked
    | busThrows c => exact absurd checked Bool.false_ne_true
    | _ => trivial
  · rintro wake task request next rfl pc passed
    simp only [linearCheck, pc, passed, Bool.not_true, Bool.false_or, beq_iff_eq] at checked
    exact checked

/-- Only a checked client of such a run starts to move. -/
theorem linearCheck_unused {vp : Platform π β} {clients : Nat} (s : State π β) (label : Label)
    (after : State π β) (unused : s.Unused clients) (checked : linearCheck clients s label = true)
    (stepped : (coreSystem vp).step s label = some after)
    : after.Unused clients := by
  refine lifetimeCheck_unused s label after unused ?_ stepped
  cases label <;> first | exact checked | rfl

/-- A checked run is one that `linearGuard` admits. -/
theorem linear_reaches {vp : Platform π β} {py : π} {bus : β} {clients : Nat}
    {labels : List Label} {finish : State π β}
    (ran : (coreSystem vp).runChecked (linearCheck clients) (State.initial py bus) labels
      = some finish)
    : (coreSystem vp).Reaches linearGuard (State.initial py bus) finish := by
  obtain ⟨executed, admitted, _⟩ := Transition.System.runChecked_run linearCheck_sound
    linearCheck_unused (fun _ _ => rfl) ran
  exact Transition.System.run_reaches executed admitted

/-- A client simulates one store while another one reads the program counter, and the read returns
first.
-/
def concurrentLabels : List Label :=
  [.call 0 (.simulate 1), .call 1 (.readRegDbg 0 8)] ++ List.replicate 3 (.client 0)
    ++ [.client 1] ++ List.replicate 8 (.worker 0) ++ List.replicate 6 (.client 0)
    ++ [.client 1] ++ List.replicate 15 (.worker 0) ++ [.client 1, .client 0, .client 0]

/-- Witness: two clients at the same time leave what one thread leaves. -/
theorem core_linearizable_concurrent
    : ∃ s : State Unit Unit,
        s.log.received.map (fun entry => (entry.1, entry.2.1)) = [(0, 0), (0, 1), (1, 3), (0, 2)]
        ∧ s.log.accesses.length = 1
        ∧ s.allIdle 2 = true
        ∧ Linear (scriptedPlatform (some 1) [sampleStore]) (.initial () ()) s
        ∧ (Replied s
          → s.sequential
            = (Sequential.initial () ()).handleTasks (scriptedPlatform (some 1) [sampleStore])
                s.postedTasks) := by
  have ran
      : ((coreSystem (scriptedPlatform (some 1) [sampleStore])).runChecked (linearCheck 2)
          (State.initial () ()) (constructionLabels ++ concurrentLabels)).map
            (fun s => (s.log.received.map (fun entry => (entry.1, entry.2.1)),
              s.log.accesses.length, s.allIdle 2))
        = some ([(0, 0), (0, 1), (1, 3), (0, 2)], 1, true) := by
    decide +kernel
  obtain ⟨s, checked, same⟩ := Option.map_eq_some_iff.mp ran
  simp only [Prod.mk.injEq] at same
  exact ⟨s, same.1, same.2.1, same.2.2,
    core_linearizable _ () () (linear_reaches checked)⟩

end VcmlPydrofoil
