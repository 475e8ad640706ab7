import VcmlPydrofoil.Plugin.CycleInvariant

/-! Every value that `cycle_count` returns in a run on one OS thread, before and after a bus access
throws: it is the counter of the last completed simulation as the `int` reports it.
-/

namespace VcmlPydrofoil

variable {χ β : Type} {ext : Pydrofoil χ} {bus : Bus β} {vp : Platform (World χ) β}
variable {s after : State (World χ) β} {label : Label}

/-- While a coroutine is suspended in a bus access, the copy agrees with the counter of the last
completed simulation.
-/
theorem CountsHold.suspended (inv : CountsHold ext s) (core : CoreInvariant s) {c : ClientId}
    {id : Nat} {memtask : MemAccess} (serves : s.client c = .access id memtask)
    : CountReady s.log.completed s.locals := by
  have serving : (s.client c).serving = some memtask := by rw [serves]; rfl
  obtain ⟨request, access, pending, _⟩ := core.access.phase.of_serving serving
  obtain ⟨task, busy, unset⟩ := core.channel.worker.coherent.of_pending pending
  have meets := inv.working task busy unset
  cases pc : s.worker with
  | notifyMem _ _ _ _ | getAnswer _ _ _ _ =>
      rw [pc] at meets
      exact meets.1
  | _ => simp [pc, WorkerPc.pending] at pending

/-- After an exception: the copy stays as it was during the access, the flag stays set, and who is
inside an operation stays there.
-/
structure CountsFrozen (s : State (World χ) β) : Prop where
  ready : CountReady s.log.completed s.locals
  started : s.simStarted = true
  clients : ∀ c, s.client c = .idle ∨ (s.client c).Waits s.results

/-- The exception of an access freezes the copy. -/
theorem CountsHold.busThrows (inv : CountsHold ext s) (thread : ThreadInvariant s)
    (calm : s.log.abandoned = []) {c : ClientId} {id : Nat} {memtask : MemAccess}
    (serves : s.client c = .access id memtask)
    : CountsFrozen (s.busThrows c id memtask) where
  ready := inv.suspended thread.core serves
  started := (thread.flags calm).flag.mpr ⟨c, by rw [serves]; rfl⟩
  clients := fun d => by
    show Function.update s.client c .idle d = .idle ∨ (Function.update s.client c .idle d).Waits _
    by_cases same : d = c
    · exact Or.inl (by rw [same, Function.update_self])
    · rw [Function.update_of_ne same]
      have outside : (s.client d).engaged = false := by
        by_contra engaged
        exact same (thread.single d c (by simpa using engaged) (by rw [serves]; rfl))
      cases pc : s.client d with
      | idle => exact Or.inl rfl
      | joinWorker => exact Or.inr (Or.inr (Or.inr rfl))
      | _ => simp [pc, ClientPc.engaged] at outside

/-- A doomed worker writes no variable, by cases on the move. -/
theorem Move.locals_of_doomed (move : Move vp s label after) (doomed : s.worker.Doomed s.answers)
    : after.locals = s.locals := by
  cases move with
  | call c op pc => rcases call_cases s c op pc with ⟨_, same⟩ | ⟨_, _, _, same⟩ <;> rw [same] <;> rfl
  | finish c op id value =>
      obtain ⟨counts, returned, same⟩ := finish_eq s c op id value
      rw [same]
      rfl
  | leave _ task function py next pc | storeCpu _ task cpu next pc | storeCycles _ task cycles next pc =>
      exact absurd doomed (WorkerPc.not_doomed (by rw [pc]; rfl) (by simp [pc]))
  | notifyHandler _ _ _ _ _ notified | notifyMem _ _ _ _ _ _ _ notified =>
      obtain ⟨cv, client, rfl, _⟩ := notifyMemtask_frame notified
      rfl
  | _ => rfl

/-- Only the end of a simulation clears the flag. -/
theorem Move.started (move : Move vp s label after) (started : s.simStarted = true)
    (ends : ∀ c, s.client c ≠ .clearSimStarted)
    : after.simStarted = true := by
  cases move with
  | call c op pc =>
      rcases call_cases s c op pc with ⟨_, same⟩ | ⟨_, _, _, same⟩ <;> rw [same] <;> exact started
  | finish c op id value =>
      obtain ⟨counts, returned, same⟩ := finish_eq s c op id value
      rw [same]
      exact started
  | setSimStarted => rfl
  | clearSimStarted c pc => exact absurd pc (ends c)
  | notifyHandler _ _ _ _ _ notified | notifyMem _ _ _ _ _ _ _ notified =>
      obtain ⟨cv, client, rfl, _⟩ := notifyMemtask_frame notified
      exact started
  | _ => exact started

/-- After an exception no client leaves `simulate`. -/
theorem CountsFrozen.not_ending (frozen : CountsFrozen s) (c : ClientId)
    : s.client c ≠ .clearSimStarted := by
  intro ends
  rcases frozen.clients c with idle | ⟨op, push⟩ | ⟨id, ticket, _⟩ | join
  · simp [ends] at idle
  · simp [ends] at push
  · simp [ends, ClientPc.phase, RequestServer.ClientPhase.ticket?] at ticket
  · simp [ends] at join

/-- After an exception the copy stays as it is. -/
theorem CountsFrozen.move (frozen : CountsFrozen s) (thrown : Thrown s)
    (move : Move vp s label after)
    : CountsFrozen after := by
  have results := move.results_of_doomed thrown.doomed
  constructor
  case ready =>
    rcases move.completed with same | ⟨c, _, ends, _⟩
    · rw [same, move.locals_of_doomed thrown.doomed]
      exact frozen.ready
    · exact absurd ends (frozen.not_ending c)
  case started => exact move.started frozen.started frozen.not_ending
  case clients =>
    intro c
    rw [results]
    rcases frozen.clients c with idle | waits
    · by_cases called : ∃ op, label = .call c op
      · obtain ⟨op, rfl⟩ := called
        cases move
        obtain ⟨pc, next, _, _, _, client⟩ := call_started s op idle
        rw [client, Function.update_self]
        rcases next with ⟨_, rfl⟩ | ⟨_, rfl⟩
        · exact Or.inr (Or.inl ⟨op, rfl⟩)
        · cases op with
          | destruct => exact Or.inr (Or.inr (Or.inr rfl))
          | _ => exact Or.inl rfl
      · exact Or.inl (idle_stays move idle fun op same => called ⟨op, same⟩)
    · exact Or.inr (thrown.waits move waits)

-----------------------------------------------------------------------------------------
-- The values that were returned
-----------------------------------------------------------------------------------------

/-- Every recorded value is the counter of the last completed simulation as the `int` reports it,
and these counters never decrease.
-/
structure Recorded (cpu : Option Handle) (completed : List (World χ))
    (counts : List (BitVec 64 × Option (World χ)))
    : Prop where
  reported : ∀ entry ∈ counts, entry.1 = reportedCycles (stepsAt cpu entry.2)
  ordered : (counts.map fun entry => stepsAt cpu entry.2).Pairwise (· ≤ ·)
  below : ∀ entry ∈ counts, stepsAt cpu entry.2 ≤ stepsAt cpu completed.getLast?
  early : completed = [] → ∀ entry ∈ counts, entry.2 = none

section Recorded

variable {cpu cpu' : Option Handle} {completed : List (World χ)}
variable {counts : List (BitVec 64 × Option (World χ))} {world : World χ}

/-- Another value is returned. -/
theorem Recorded.append (recorded : Recorded cpu completed counts) {value : BitVec 64}
    (exact : value = reportedCycles (stepsAt cpu completed.getLast?))
    : Recorded cpu completed (counts ++ [(value, completed.getLast?)]) := by
  constructor
  case reported =>
    intro entry member
    rcases List.mem_append.mp member with old | new
    · exact recorded.reported entry old
    · obtain rfl := List.mem_singleton.mp new
      exact exact
  case ordered =>
    rw [List.map_append, List.pairwise_append]
    refine ⟨recorded.ordered, List.pairwise_singleton _ _, ?_⟩
    simp only [List.map_singleton, List.mem_singleton, List.mem_map]
    rintro _ ⟨entry, old, rfl⟩ _ rfl
    exact recorded.below entry old
  case below =>
    intro entry member
    rcases List.mem_append.mp member with old | new
    · exact recorded.below entry old
    · obtain rfl := List.mem_singleton.mp new
      exact Nat.le_refl _
  case early =>
    rintro rfl entry member
    rcases List.mem_append.mp member with old | new
    · exact recorded.early rfl entry old
    · obtain rfl := List.mem_singleton.mp new
      rfl

/-- Another simulation completes, and the counter has not decreased. -/
theorem Recorded.completes (recorded : Recorded cpu completed counts)
    (grown : stepsAt cpu completed.getLast? ≤ world.steps cpu)
    : Recorded cpu (completed ++ [world]) counts where
  reported := recorded.reported
  ordered := recorded.ordered
  below := fun entry member => by
    rw [List.getLast?_concat]
    exact (recorded.below entry member).trans grown
  early := by simp

/-- Before the first simulation the handle does not matter. -/
theorem Recorded.store (recorded : Recorded cpu [] counts) : Recorded cpu' [] counts := by
  have same (entry : BitVec 64 × Option (World χ)) (member : entry ∈ counts)
      : stepsAt cpu' entry.2 = stepsAt cpu entry.2 := by
    rw [recorded.early rfl entry member]
    rfl
  constructor
  case reported =>
    intro entry member
    rw [same entry member]
    exact recorded.reported entry member
  case ordered =>
    rw [List.map_congr_left same]
    exact recorded.ordered
  case below =>
    intro entry member
    rw [same entry member]
    exact recorded.below entry member
  case early => exact recorded.early

end Recorded

/-- A move that returns from `cycle_count` records the copy or the value of the promise. -/
theorem Move.cycleCounts (move : Move vp s label after)
    : after.log.cycleCounts = s.log.cycleCounts
      ∨ ∃ value,
          after.log.cycleCounts = s.log.cycleCounts ++ [(value, s.log.completed.getLast?)]
          ∧ after.cpu = s.cpu
          ∧ after.log.completed = s.log.completed
          ∧ ((∃ c, label = .call c .cycleCount ∧ s.client c = .idle)
              ∧ s.simStarted = true
              ∧ value = s.cachedCycles
            ∨ ∃ c id, s.client c = .getResult .cycleCount id ∧ s.results id = some value) := by
  cases move with
  | call c op pc =>
      rcases call_cases s c op pc with ⟨_, same⟩ | ⟨silent, _⟩
      · rw [same]
        exact Or.inl rfl
      · have posts : { s with lifetime := s.lifetime.called op }.posts op = false := by
          rw [← silent]
          cases op <;> rfl
        have same : s.call c op = { s with lifetime := s.lifetime.called op }.returnsAtOnce c op := by
          simp only [State.call, posts, Bool.false_eq_true, ↓reduceIte]
        rw [same]
        cases op with
        | cycleCount =>
            have started : (!s.simStarted) = false := silent
            exact Or.inr ⟨s.cachedCycles, rfl, rfl, rfl,
              Or.inl ⟨⟨c, rfl, pc⟩, by simpa using started, rfl⟩⟩
        | _ => exact Or.inl rfl
  | finish c op id value pc ready =>
      cases op with
      | cycleCount => exact Or.inr ⟨value, rfl, rfl, rfl, Or.inr ⟨c, id, pc, ready⟩⟩
      | _ => exact Or.inl rfl
  | notifyHandler _ _ _ _ _ notified | notifyMem _ _ _ _ _ _ _ notified =>
      obtain ⟨cv, client, rfl, _⟩ := notifyMemtask_frame notified
      exact Or.inl rfl
  | _ => exact Or.inl rfl

/-- Only a handler stores the handle. -/
theorem Move.cpu (move : Move vp s label after)
    : after.cpu = s.cpu
      ∨ after.log.completed = s.log.completed
        ∧ ∃ task cpu next, s.worker = .handler task (.ask (.storeCpu cpu) next) := by
  cases move with
  | call c op pc =>
      rcases call_cases s c op pc with ⟨_, same⟩ | ⟨_, _, _, same⟩ <;> rw [same] <;> exact Or.inl rfl
  | finish c op id value =>
      obtain ⟨counts, returned, same⟩ := finish_eq s c op id value
      rw [same]
      exact Or.inl rfl
  | storeCpu _ task cpu next pc => exact Or.inr ⟨rfl, task, cpu, next, pc⟩
  | notifyHandler _ _ _ _ _ notified | notifyMem _ _ _ _ _ _ _ notified =>
      obtain ⟨cv, client, rfl, _⟩ := notifyMemtask_frame notified
      exact Or.inl rfl
  | _ => exact Or.inl rfl

/-- The copy that agrees with the counter is what `cycle_count` reports. -/
theorem CountReady.cached (ready : CountReady s.log.completed s.locals)
    : s.cachedCycles = reportedCycles (stepsAt s.cpu s.log.completed.getLast?) := by
  have counted : s.py.steps s.cpu = stepsAt s.cpu s.log.completed.getLast? := ready.counted
  have stored : s.nCycles = storedCycles (s.py.steps s.cpu) := ready.stored
  rw [State.cachedCycles, stored, counted]
  rfl

-----------------------------------------------------------------------------------------
-- Runs
-----------------------------------------------------------------------------------------

/-- The counter, its copy and the values that were returned, whether or not a bus access has
thrown.
-/
structure CycleInvariant (ext : Pydrofoil χ) (s : State (World χ) β) : Prop where
  thread : ThreadInvariant s
  order : OrderInvariant s
  calm : s.log.abandoned = [] → CountsHold ext s
  frozen : s.log.abandoned ≠ [] → CountsFrozen s
  recorded : Recorded s.cpu s.log.completed s.log.cycleCounts

/-- Before the constructor nothing has been counted. -/
theorem CycleInvariant.initial (ext : Pydrofoil χ) {py : World χ} (fresh : py.Fresh) (bus : β)
    : CycleInvariant ext (State.initial py bus) where
  thread := .initial py bus
  order := fun c op inside => by cases inside
  calm := fun _ => {
    working := fun task busy => by cases busy
    told := fun c id value current => by cases current
    done := fun c ends => by cases ends.engaged
    resting := fun _ _ => { fresh, counted := rfl, stored := rfl }
  }
  frozen := fun thrown => absurd rfl thrown
  recorded := {
    reported := fun entry member => by cases member
    ordered := List.Pairwise.nil
    below := fun entry member => by cases member
    early := fun _ entry member => by cases member
  }

/-- What `cycle_count` returns is the counter of the last completed simulation: from the copy, which
its caller finds while another coroutine is suspended, and from the worker.
-/
theorem CycleInvariant.returned (inv : CycleInvariant ext s) (allowed : lifecycleGuard s label)
    {value : BitVec 64}
    (returned
      : (∃ c, label = .call c .cycleCount ∧ s.client c = .idle)
          ∧ s.simStarted = true
          ∧ value = s.cachedCycles
        ∨ ∃ c id, s.client c = .getResult .cycleCount id ∧ s.results id = some value)
    : value = reportedCycles (stepsAt s.cpu s.log.completed.getLast?) := by
  by_cases calm : s.log.abandoned = []
  · have counts := inv.calm calm
    rcases returned with ⟨⟨c, rfl, idle⟩, started, rfl⟩ | ⟨c, id, waits, ready⟩
    · obtain ⟨d, flagged⟩ := (inv.thread.flags calm).flag.mp started
      have other : d ≠ c := by
        rintro rfl
        simp [idle, ClientPc.flagged, ClientPc.inSimulate] at flagged
      have yields := allowed.1.1.1 d other
      cases pc : s.client d with
      | access id memtask => exact (counts.suspended inv.thread.core pc).cached
      | _ => simp_all [ClientPc.yields, ClientPc.flagged, ClientPc.inSimulate]
    · exact counts.told c id value (by rw [waits]; rfl) ready
  · have frozen := inv.frozen calm
    rcases returned with ⟨_, _, rfl⟩ | ⟨c, id, waits, ready⟩
    · exact frozen.ready.cached
    · rcases frozen.clients c with idle | busy
      · simp [waits] at idle
      · have unset : s.results id = none := busy.unset (by rw [waits]; rfl)
        simp [unset] at ready

/-- Every move keeps what `cycle_count` has returned in agreement with the counter. -/
theorem CycleInvariant.recorded_move (inv : CycleInvariant ext s)
    (move : Move (gluePlatform ext bus) s label after) (allowed : lifecycleGuard s label)
    : Recorded after.cpu after.log.completed after.log.cycleCounts := by
  rcases move.cycleCounts with same | ⟨value, told, cpu, completed, returned⟩
  · rw [same]
    rcases move.cpu with cpu | ⟨completed, task, cpu, next, pc⟩
    · rw [cpu]
      rcases move.completed with completed | ⟨c, _, ends, rfl⟩
      · rw [completed]
        exact inv.recorded
      · have calm : s.log.abandoned = [] := by
          by_contra thrown
          exact (inv.frozen thrown).not_ending c ends
        exact inv.recorded.completes ((inv.calm calm).done c (Or.inl ends)).grown
    · have calm : s.log.abandoned = [] := by
        by_contra thrown
        exact WorkerPc.not_doomed (by rw [pc]; rfl) (by simp [pc])
          (inv.thread.core.exceptions.doomed thrown)
      have coherent := inv.thread.core.channel.worker.coherent
      rw [pc] at coherent
      have meets := (inv.calm calm).working task (by rw [pc]; rfl) (coherent.pending (by simp)).1
      rw [pc] at meets
      have none : s.log.completed = [] := meets.1
      have recorded := inv.recorded
      rw [none] at recorded
      rw [completed, none]
      exact recorded.store
  · rw [told, cpu, completed]
    exact inv.recorded.append (inv.returned allowed returned)

/-- Every move of a run in VCML's order keeps the invariant. -/
theorem CycleInvariant.move (inv : CycleInvariant ext s)
    (move : Move (gluePlatform ext bus) s label after) (allowed : lifecycleGuard s label)
    : CycleInvariant ext after := by
  have thread := inv.thread.move move allowed.1.1 allowed.1.2
  constructor
  case thread => exact thread
  case order => exact inv.order.move inv.thread move allowed.2
  case calm =>
    intro calm
    exact (inv.calm (move.completes calm).2).move inv.order inv.thread thread move calm
  case frozen =>
    intro thrown
    by_cases calm : s.log.abandoned = []
    · rcases move.throws_or_completes with ⟨c, id, memtask, serves, rfl⟩ | completes
      · exact (inv.calm calm).busThrows inv.thread calm serves
      · exact absurd ((move.abandoned completes).trans calm) thrown
    · exact (inv.frozen calm).move ⟨inv.thread.core, calm⟩ move
  case recorded => exact inv.recorded_move move allowed

/-- In every run in VCML's order what `cycle_count` returns is known. -/
theorem CycleInvariant.reaches {py : World χ} (fresh : py.Fresh) {start : β}
    (reached : (coreSystem (gluePlatform ext bus)).Reaches lifecycleGuard
      (State.initial py start) s)
    : CycleInvariant ext s := by
  refine reached.invariant ?_ (.initial ext fresh _)
  rintro before after inv ⟨label, allowed, stepped⟩
  exact inv.move (step_move stepped) allowed

end VcmlPydrofoil
