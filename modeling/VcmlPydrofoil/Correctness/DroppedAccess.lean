import VcmlPydrofoil.MemoryChannel.Simulations

/-! A running simulation drops a memory access exactly when the worker makes it before the
SystemC thread has come from the push of the task to `sim_started = true`.
-/

namespace VcmlPydrofoil

open Interaction (Tree)

variable {π β : Type} {vp : Platform π β} {s after : State π β} {label : Label}

/-- No callback of a Simulate task was dropped. -/
def NeverDropped (s : State π β) : Prop :=
  ∀ entry ∈ s.log.dropped, entry.1.pyFunct ≠ .simulate

/-- The worker makes no callback into the windows while the client of its task stands between
the push of line 95 and the assignment of line 97.
-/
def FlagFirst (s : State π β) (label : Label) : Prop :=
  ∀ wake task request next c cycles,
    label = .worker wake
    → s.worker = .handler task (.ask (.callback request) next)
    → accepted request.address = true
    → s.client c ≠ .setSimStarted cycles task.result

/-- A callback is dropped only by its own step. -/
theorem Move.dropped (move : Move vp s label after)
    : after.log.dropped = s.log.dropped
      ∨ ∃ wake task request next,
          label = .worker wake
          ∧ s.worker = .handler task (.ask (.callback request) next)
          ∧ accepted request.address = true
          ∧ s.simStarted = false
          ∧ after.log.dropped = s.log.dropped ++ [(task, request)] := by
  cases move with
  | call c op pc =>
      rcases call_cases s c op pc with ⟨_, same⟩ | ⟨_, _, _, same⟩ <;> rw [same] <;> exact Or.inl rfl
  | finish c op id value pc =>
      obtain ⟨counts, returned, same⟩ := finish_eq s c op id value
      rw [same]
      exact Or.inl rfl
  | dropCallback wake task request next pc passed notStarted =>
      exact Or.inr ⟨wake, task, request, next, rfl, pc, passed, notStarted, rfl⟩
  | notifyHandler _ _ _ _ _ notified | notifyMem _ _ _ _ _ _ _ notified =>
      obtain ⟨cv, client, rfl, _⟩ := notifyMemtask_frame notified
      exact Or.inl rfl
  | _ => exact Or.inl rfl

/-- A drop stays in the history. -/
theorem Move.dropped_subset (move : Move vp s label after)
    : s.log.dropped ⊆ after.log.dropped := by
  rcases move.dropped with same | ⟨_, _, _, _, _, _, _, _, same⟩ <;> rw [same]
  · exact List.Subset.refl _
  · exact List.subset_append_left _ _

/-- A callback of an unanswered Simulate task finds the flag set, or its client at line 97. -/
theorem SimulationInvariant.flag_or_waiting (inv : SimulationInvariant s) {task : PythonTask}
    (busy : s.worker.task? = some task) (unset : s.results task.result = none)
    (simulate : task.pyFunct = .simulate)
    : s.simStarted = true ∨ ∃ c cycles, s.client c = .setSimStarted cycles task.result := by
  obtain ⟨c, current, inside⟩ := inv.completing.simulating inv.flags busy unset simulate
  by_cases flagged : (s.client c).flagged = true
  · exact Or.inl (inv.flags.flag.mpr ⟨c, flagged⟩)
  · obtain ⟨cycles, id, pc⟩ := ClientPc.waits_of_not_flagged inside (by simpa using flagged)
    simp only [pc, ClientPc.current, Option.some.injEq, Prod.mk.injEq, true_and] at current
    exact Or.inr ⟨c, cycles, current ▸ pc⟩

/-- While the client of a task stands at line 97, the task is a Simulate task and the flag is
not set.
-/
theorem SimulationInvariant.not_flagged (inv : SimulationInvariant s) {c : ClientId}
    {cycles : BitVec 64} {task : PythonTask} (busy : s.worker.task? = some task)
    (pc : s.client c = .setSimStarted cycles task.result)
    : s.simStarted = false ∧ task.pyFunct = .simulate := by
  constructor
  · by_contra started
    obtain ⟨d, flagged⟩ := inv.flags.flag.mp (by simpa using started)
    have same : d = c :=
      inv.flags.single d c (ClientPc.simulates_of_flagged flagged) (by rw [pc]; rfl)
    simp [same, pc, ClientPc.flagged] at flagged
  · exact inv.completing.core.funct_of_current busy (by rw [pc]; rfl)

/-- One step drops a callback of a Simulate task exactly when the flag does not come first. -/
theorem SimulationInvariant.drops_iff (inv : SimulationInvariant s) (clean : NeverDropped s)
    (stepped : (coreSystem vp).step s label = some after)
    : NeverDropped after ↔ FlagFirst s label := by
  have move := step_move stepped
  constructor
  · rintro kept wake task request next c cycles rfl pc passed waits
    have busy : s.worker.task? = some task := by rw [pc]; rfl
    obtain ⟨notStarted, simulate⟩ := inv.not_flagged busy waits
    have dropped : after = s.dropCallback task request next := by
      have running := (step_running stepped).2
      simp only [State.threadStep, State.workerStep, pc, State.runInstr, State.enterCallback,
        passed, notStarted, Bool.not_true, Bool.not_false, Bool.false_eq_true, ↓reduceIte,
        Option.some.injEq] at running
      exact running.symm
    exact kept (task, request) (by simp [dropped, State.dropCallback]) simulate
  · intro first entry member
    rcases move.dropped with same | ⟨wake, task, request, next, rfl, pc, passed, notStarted, same⟩
    · exact clean entry (same ▸ member)
    rw [same] at member
    rcases List.mem_append.mp member with old | new
    · exact clean entry old
    · obtain rfl := List.mem_singleton.mp new
      intro simulate
      have busy : s.worker.task? = some task := by rw [pc]; rfl
      have coherent := inv.completing.core.channel.worker.coherent
      rw [pc] at coherent
      rcases inv.flag_or_waiting busy coherent.callback.1 simulate with started | ⟨c, cycles, waits⟩
      · simp [started] at notStarted
      · exact first wake task request next c cycles rfl pc passed waits

/-- A drop in a run stays in its final state, by induction on the labels. -/
theorem run_dropped {labels : List Label} {start finish : State π β}
    (ran : (coreSystem vp).run start labels = some finish)
    : start.log.dropped ⊆ finish.log.dropped := by
  induction labels generalizing start with
  | nil =>
      obtain rfl : start = finish := Option.some.inj ran
      exact List.Subset.refl _
  | cons label rest ih =>
      obtain ⟨next, stepped, rest⟩ := Option.bind_eq_some_iff.mp ran
      exact List.Subset.trans (step_move stepped).dropped_subset (ih rest)

/-- A run from any state without drops ends without drops exactly when the flag comes first at
each of its steps, by induction on the labels.
-/
theorem SimulationInvariant.run_iff {labels : List Label} {start finish : State π β}
    (inv : SimulationInvariant start) (clean : NeverDropped start)
    (ran : (coreSystem vp).run start labels = some finish)
    (admitted : (coreSystem vp).Admits simulationGuard start labels)
    : NeverDropped finish ↔ (coreSystem vp).Admits FlagFirst start labels := by
  induction labels generalizing start with
  | nil =>
      obtain rfl : start = finish := Option.some.inj ran
      exact ⟨fun _ => trivial, fun _ => clean⟩
  | cons label rest ih =>
      obtain ⟨next, stepped, later⟩ := Option.bind_eq_some_iff.mp ran
      have kept := inv.moves (.of_step admitted.1 stepped)
      constructor
      · intro final
        have middle : NeverDropped next := fun entry member =>
          final entry (run_dropped later member)
        refine ⟨(inv.drops_iff clean stepped).mp middle, fun other same => ?_⟩
        obtain rfl := Option.some.inj (stepped.symm.trans same)
        exact (ih kept middle later (admitted.2 _ stepped)).mp final
      · rintro ⟨first, others⟩
        have middle := (inv.drops_iff clean stepped).mpr first
        exact (ih kept middle later (admitted.2 _ stepped)).mpr (others next stepped)

/-- In every run with one simulation at a time and without a throwing bus access, no access of
a simulation is dropped exactly when at each step of the run the flag comes before the worker's
callback.
-/
theorem simulation_neverDropped_iff (vp : Platform π β) (py : π) (bus : β) {labels : List Label}
    {s : State π β} (ran : (coreSystem vp).run (State.initial py bus) labels = some s)
    (admitted : (coreSystem vp).Admits simulationGuard (State.initial py bus) labels)
    : NeverDropped s ↔ (coreSystem vp).Admits FlagFirst (State.initial py bus) labels :=
  (SimulationInvariant.initial py bus).run_iff (by simp [NeverDropped, State.initial]) ran admitted

/-- A simulation of one store up to the worker's callback. The SystemC thread has pushed the
task, and before the callback sets the flag when `first` is true.
-/
def storeLabels (first : Bool) : List Label :=
  constructionLabels ++ [.call 0 (.simulate 1), .client 0]
    ++ (if first then [.client 0] else []) ++ List.replicate 6 (.worker 0)

/-- Witness: a store that is not dropped is made with the flag set. -/
theorem simulation_neverDropped_store
    : (coreSystem (scriptedPlatform (some 1) [sampleStore])).Admits FlagFirst
        (State.initial () ()) (storeLabels true) := by
  have ran
      : ((coreSystem (scriptedPlatform (some 1) [sampleStore])).runChecked (sequentialCheck 1)
          (State.initial () ()) (storeLabels true)).map (fun s => s.log.dropped)
        = some [] := by
    decide
  obtain ⟨s, executed, none⟩ := Option.map_eq_some_iff.mp ran
  obtain ⟨run, admitted, _⟩ := sequential_run executed
  have clean : NeverDropped s := by simp [NeverDropped, none]
  exact (simulation_neverDropped_iff _ () () run
    (Transition.System.Admits.mono simulationGuard_of_sequential admitted)).mp clean

/-- A store is dropped when the worker takes the task and runs it before the flag is set. -/
theorem simulation_drops_store
    : ∃ s : State Unit Unit,
        (coreSystem (scriptedPlatform (some 1) [sampleStore])).Reaches sequentialGuard
          (State.initial () ()) s
        ∧ accepted sampleStore.address = true
        ∧ ∃ task, (task, sampleStore) ∈ s.log.dropped ∧ task.pyFunct = .simulate := by
  have ran
      : ((coreSystem (scriptedPlatform (some 1) [sampleStore])).runChecked (sequentialCheck 1)
          (State.initial () ()) (storeLabels false)).map (fun s => s.log.dropped)
        = some [((Operation.simulate 1).task 2, sampleStore)] := by
    decide
  obtain ⟨s, executed, dropped⟩ := Option.map_eq_some_iff.mp ran
  exact ⟨s, (sequential_reaches executed).1, by decide, (Operation.simulate 1).task 2,
    by simp [dropped], rfl⟩

end VcmlPydrofoil
