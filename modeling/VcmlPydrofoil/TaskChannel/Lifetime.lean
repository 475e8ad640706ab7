import VcmlPydrofoil.Model.Runs
import VcmlPydrofoil.TaskChannel.Simulation

/-! Over the lifetime of the object the first task is that of the constructor, and the task of
the destructor comes last.
-/

namespace VcmlPydrofoil

open Interaction (Tree)

variable {π β : Type} {vp : Platform π β} {s after : State π β} {label : Label}

/-- The functions of the posted tasks, in posting order. -/
def State.postedFuncts (s : State π β) : List Funct :=
  s.log.posted.map (fun entry => entry.2.pyFunct)

/-- Neither the constructor nor the destructor. -/
def Operation.Ordinary : Operation → Prop
  | .construct _ | .destruct => False
  | _ => True

/-- A client that is neither in the constructor nor in the destructor. -/
def ClientPc.Ordinary : ClientPc → Prop
  | .push op | .notifyTask op _ | .getResult op _ => op.Ordinary
  | .joinWorker => False
  | _ => True

/-- The tasks posted while the object lives: the constructor's first, none of another
constructor, and not yet the destructor's.
-/
def Alive (functs : List Funct) : Prop :=
  ∃ middle, functs = .init :: middle ∧ .init ∉ middle ∧ .freeCpu ∉ middle

/-- The tasks posted up to the end of the object. -/
def Ended (functs : List Funct) : Prop :=
  Alive functs ∨ ∃ earlier, functs = earlier ++ [.freeCpu] ∧ Alive earlier

/-- Where the one busy client stands, and which tasks are posted, while the object is not yet
or no longer alive. `allocated` says that the constructor's task has its value.
-/
def Lifetime.Stage (functs : List Funct) (allocated : Bool) (pc : ClientPc) : Lifetime → Prop
  | .unborn => functs = [] ∧ pc = .idle
  | .constructing =>
      (functs = [] ∧ ∃ coreType, pc = .push (.construct coreType))
      ∨ (functs = [.init]
        ∧ ((∃ coreType,
              pc = .notifyTask (.construct coreType) 0 ∨ pc = .getResult (.construct coreType) 0)
          ∨ (pc = .push (.readRegDbg 0 8) ∧ allocated)))
      ∨ (functs = [.init, .readPc] ∧ allocated
        ∧ ∃ id, pc = .notifyTask (.readRegDbg 0 8) id ∨ pc = .getResult (.readRegDbg 0 8) id)
  | .alive => False
  | .destructing =>
      allocated
      ∧ ((Alive functs ∧ (pc = .push .destruct))
        ∨ (Ended functs
          ∧ ((∃ id, pc = .notifyTask .destruct id ∨ pc = .getResult .destruct id)
            ∨ pc = .joinWorker)))
  | .dead => allocated ∧ Ended functs ∧ pc = .idle

/-- The task of the constructor, which has the first ticket, has its value. -/
def State.allocated (s : State π β) : Bool := (s.results 0).isSome

/-- The object is alive and its clients run ordinary operations, or one client constructs or
destroys it alone.
-/
inductive LifetimeInvariant (s : State π β) : Prop
  | alive (lifetime : s.lifetime = .alive) (allocated : s.allocated)
    (posted : Alive s.postedFuncts) (ordinary : ∀ c, (s.client c).Ordinary)
  | alone (c : ClientId) (idle : ∀ other, other ≠ c → s.client other = .idle)
    (stage : s.lifetime.Stage s.postedFuncts s.allocated (s.client c))

/-- The one busy client of a construction or destruction is not in `simulate`. -/
theorem Lifetime.Stage.outside {functs : List Funct} {allocated : Bool} {pc : ClientPc}
    {lifetime : Lifetime} (stage : lifetime.Stage functs allocated pc)
    : pc.inSimulate = false := by
  cases lifetime <;> simp only [Lifetime.Stage] at stage
  case unborn => rw [stage.2]; rfl
  case constructing =>
    rcases stage with ⟨_, _, rfl⟩ | ⟨_, ⟨_, rfl | rfl⟩ | ⟨rfl, _⟩⟩ | ⟨_, _, _, rfl | rfl⟩ <;> rfl
  case destructing =>
    rcases stage with ⟨_, ⟨_, rfl⟩ | ⟨_, ⟨_, rfl | rfl⟩ | rfl⟩⟩ <;> rfl
  case dead => rw [stage.2.2]; rfl

/-- A stage does not end when the constructor's task gets its value. -/
theorem Lifetime.Stage.mono {functs : List Funct} {before after : Bool} {pc : ClientPc}
    {lifetime : Lifetime} (stage : lifetime.Stage functs before pc)
    (still : before = true → after = true)
    : lifetime.Stage functs after pc := by
  cases lifetime with
  | unborn => exact stage
  | constructing =>
      rcases stage with none | ⟨init, waiting | ⟨push, set⟩⟩ | ⟨both, set, waiting⟩
      · exact Or.inl none
      · exact Or.inr (Or.inl ⟨init, Or.inl waiting⟩)
      · exact Or.inr (Or.inl ⟨init, Or.inr ⟨push, still set⟩⟩)
      · exact Or.inr (Or.inr ⟨both, still set, waiting⟩)
  | alive => exact stage
  | destructing => exact ⟨still stage.1, stage.2⟩
  | dead => exact ⟨still stage.1, stage.2⟩

/-- The posted tasks start with the constructor's and end with the destructor's. -/
theorem LifetimeInvariant.posted (inv : LifetimeInvariant s)
    : s.postedFuncts = [] ∨ Ended s.postedFuncts := by
  cases inv with
  | alive _ _ posted _ => exact Or.inr (Or.inl posted)
  | alone c _ stage =>
      cases lifetime : s.lifetime <;> simp only [lifetime, Lifetime.Stage] at stage
      case unborn => exact Or.inl stage.1
      case constructing =>
        rcases stage with ⟨none, _⟩ | ⟨init, _⟩ | ⟨both, _⟩
        · exact Or.inl none
        · exact Or.inr (Or.inl ⟨[], init, by simp⟩)
        · exact Or.inr (Or.inl ⟨[.readPc], both, by simp⟩)
      case destructing =>
        rcases stage with ⟨_, ⟨posted, _⟩ | ⟨posted, _⟩⟩
        · exact Or.inr (Or.inl posted)
        · exact Or.inr posted
      case dead => exact Or.inr stage.2.1

/-- A move that touches neither the clients nor the tasks posted keeps the invariant. -/
theorem LifetimeInvariant.frame (inv : LifetimeInvariant s)
    (lifetime : after.lifetime = s.lifetime) (posted : after.log.posted = s.log.posted)
    (allocated : s.allocated = true → after.allocated = true)
    (clients
      : ∀ c,
          after.client c = s.client c
          ∨ ∃ id, s.client c = .asleep id ∧ after.client c = .lockMemtask id)
    : LifetimeInvariant after := by
  have functs : after.postedFuncts = s.postedFuncts := by simp only [State.postedFuncts, posted]
  cases inv with
  | alive alive set shape ordinary =>
      refine .alive (lifetime.trans alive) (allocated set) (functs ▸ shape) (fun c => ?_)
      rcases clients c with same | ⟨id, _, woken⟩
      · exact same ▸ ordinary c
      · rw [woken]
        trivial
  | alone c idle stage =>
      have still (other : ClientId) (pc : s.client other = .idle) : after.client other = .idle := by
        rcases clients other with same | ⟨id, asleep, _⟩
        · exact same.trans pc
        · simp [pc] at asleep
      have same : after.client c = s.client c := by
        rcases clients c with same | ⟨id, asleep, _⟩
        · exact same
        · have outside := stage.outside
          simp [asleep, ClientPc.inSimulate] at outside
      refine .alone c (fun other different => still other (idle other different)) ?_
      rw [lifetime, functs, same]
      exact stage.mono allocated

/-- A client in the loop of `simulate` moves while the object is alive. -/
theorem LifetimeInvariant.simulating (inv : LifetimeInvariant s) {c : ClientId}
    {pc : ClientPc} (inside : (s.client c).inSimulate) (ordinary : pc.Ordinary)
    (lifetime : after.lifetime = s.lifetime) (posted : after.log.posted = s.log.posted)
    (client : after.client = Function.update s.client c pc) (results : after.results = s.results)
    : LifetimeInvariant after := by
  have functs : after.postedFuncts = s.postedFuncts := by simp only [State.postedFuncts, posted]
  cases inv with
  | alive alive set shape others =>
      refine .alive (lifetime.trans alive) (by rw [State.allocated, results]; exact set)
        (functs ▸ shape) (fun other => ?_)
      rw [client]
      by_cases same : other = c
      · simpa [same] using ordinary
      · simpa [same] using others other
  | alone d idle stage =>
      by_cases same : c = d
      · subst d
        simp [stage.outside] at inside
      · simp [idle c same, ClientPc.inSimulate] at inside

/-- One more ordinary task keeps the shape of a living object's tasks. -/
theorem Alive.append {functs : List Funct} (shape : Alive functs) {op : Operation}
    (ordinary : op.Ordinary)
    : Alive (functs ++ [op.pyFunct]) := by
  obtain ⟨middle, rfl, noInit, noFree⟩ := shape
  refine ⟨middle ++ [op.pyFunct], rfl, ?_, ?_⟩ <;>
    cases op <;> simp_all [Operation.Ordinary, Operation.pyFunct]

/-- The client that constructs or destroys is the only one that can move. -/
theorem alone_client {c d : ClientId}
    (idle : ∀ other, other ≠ d → s.client other = .idle) (busy : s.client c ≠ .idle)
    : c = d := by
  by_contra different
  exact busy (idle c different)

/-- A call within the lifetime starts the construction, an ordinary operation or the
destruction.
-/
theorem LifetimeInvariant.call (inv : LifetimeInvariant s) {c : ClientId} {op : Operation}
    (pc : s.client c = .idle) (allowed : lifetimeGuard s (.call c op))
    : LifetimeInvariant (s.call c op) := by
  obtain ⟨pc', started, lifetime, posted, results, client⟩ := call_started s op pc
  have functs : (s.call c op).postedFuncts = s.postedFuncts := by
    simp only [State.postedFuncts, posted]
  have allocated : (s.call c op).allocated = s.allocated := by simp only [State.allocated, results]
  have mine : (s.call c op).client c = pc' := by simp [client]
  have others (other : ClientId) (different : other ≠ c)
      : (s.call c op).client other = s.client other := by simp [client, different]
  cases inv with
  | alive alive set shape ordinary =>
      cases op with
      | construct coreType => simp [lifetimeGuard, alive] at allowed
      | destruct =>
          refine .alone c (fun other different => (others other different).trans (allowed.2 other)) ?_
          rw [lifetime, functs, allocated, mine]
          refine ⟨set, ?_⟩
          rcases started with ⟨_, rfl⟩ | ⟨_, rfl⟩
          · exact Or.inl ⟨shape, rfl⟩
          · exact Or.inr ⟨Or.inl shape, Or.inr rfl⟩
      | _ =>
          refine .alive (lifetime.trans alive) (allocated ▸ set) (functs ▸ shape) (fun other => ?_)
          by_cases same : other = c
          · subst other
            rw [mine]
            rcases started with ⟨_, rfl⟩ | ⟨_, rfl⟩ <;> trivial
          · exact others other same ▸ ordinary other
  | alone d idle stage =>
      cases op with
      | construct coreType =>
          have unborn : s.lifetime = .unborn := allowed
          rw [unborn] at stage
          refine .alone c (fun other different => ?_) ?_
          · rw [others other different]
            by_cases same : other = d
            · exact same ▸ stage.2
            · exact idle other same
          · rw [lifetime, functs, allocated, mine]
            rcases started with ⟨_, push⟩ | ⟨refused, _⟩
            · exact Or.inl ⟨stage.1, coreType, push⟩
            · unfold State.posts at refused
              contradiction
      | destruct => simp [allowed.1, Lifetime.Stage] at stage
      | _ =>
          have alive : s.lifetime = .alive := allowed
          simp [alive, Lifetime.Stage] at stage

/-- A push adds the task of the operation. -/
theorem LifetimeInvariant.pushTask (inv : LifetimeInvariant s) (worker : WorkerInvariant s)
    {c : ClientId} {op : Operation} (pc : s.client c = .push op)
    : LifetimeInvariant (s.pushTask c op) := by
  have functs : (s.pushTask c op).postedFuncts = s.postedFuncts ++ [op.pyFunct] := by
    simp [State.postedFuncts, State.pushTask, Operation.task]
  have tickets : s.nextTask = s.postedFuncts.length := by
    have := congrArg List.length worker.tickets
    simpa [State.postedFuncts] using this.symm
  cases inv with
  | alive alive set shape ordinary =>
      have mine := ordinary c
      rw [pc] at mine
      refine .alive alive set (functs ▸ shape.append mine) (fun other => ?_)
      by_cases same : other = c
      · subst other
        cases op <;> simp_all [State.pushTask, ClientPc.Ordinary]
      · simpa [State.pushTask, same] using ordinary other
  | alone d idle stage =>
      obtain rfl := alone_client idle (by simp [pc] : s.client c ≠ .idle)
      refine .alone c (fun other different => by simp [State.pushTask, different, idle]) ?_
      rw [functs]
      have lifetime : (s.pushTask c op).lifetime = s.lifetime := rfl
      have allocated : (s.pushTask c op).allocated = s.allocated := rfl
      rw [lifetime, allocated]
      cases here : s.lifetime <;> simp only [here, Lifetime.Stage, pc] at stage
      case unborn => simp at stage
      case constructing =>
        rcases stage with ⟨none, coreType, same⟩ | ⟨init, ⟨_, other⟩ | ⟨same, set⟩⟩
          | ⟨_, _, _, other⟩
        · obtain rfl := ClientPc.push.inj same
          have first : s.nextTask = 0 := by simp [tickets, none]
          exact Or.inr (Or.inl ⟨by simp [none, Operation.pyFunct],
            Or.inl ⟨coreType, Or.inl (by simp [State.pushTask, first])⟩⟩)
        · simp at other
        · obtain rfl := ClientPc.push.inj same
          exact Or.inr (Or.inr ⟨by simp [init, Operation.pyFunct], set,
            s.nextTask, Or.inl (by simp [State.pushTask])⟩)
        · simp at other
      case destructing =>
        rcases stage with ⟨set, ⟨shape, same⟩ | ⟨_, ⟨_, other⟩ | other⟩⟩
        · obtain rfl := ClientPc.push.inj same
          exact ⟨set, Or.inr ⟨Or.inr ⟨_, rfl, shape⟩,
            Or.inl ⟨s.nextTask, Or.inl (by simp [State.pushTask])⟩⟩⟩
        · simp at other
        · simp at other
      case dead => simp at stage

/-- The notification of a task leaves the operation where it is. -/
theorem LifetimeInvariant.notifyTask (inv : LifetimeInvariant s) {c : ClientId} {op : Operation}
    {id : Nat} (pc : s.client c = .notifyTask op id)
    : LifetimeInvariant (s.notifyTask c op id) := by
  have functs : (s.notifyTask c op id).postedFuncts = s.postedFuncts := rfl
  have lifetime : (s.notifyTask c op id).lifetime = s.lifetime := rfl
  have allocated : (s.notifyTask c op id).allocated = s.allocated := rfl
  cases inv with
  | alive alive set shape ordinary =>
      have mine := ordinary c
      rw [pc] at mine
      refine .alive alive set shape (fun other => ?_)
      by_cases same : other = c
      · subst other
        cases op <;> simp_all [State.notifyTask, ClientPc.Ordinary]
      · simpa [State.notifyTask, same] using ordinary other
  | alone d idle stage =>
      obtain rfl := alone_client idle (by simp [pc] : s.client c ≠ .idle)
      refine .alone c (fun other different => by simp [State.notifyTask, different, idle]) ?_
      rw [functs, lifetime, allocated]
      cases here : s.lifetime <;> simp only [here, Lifetime.Stage, pc] at stage
      case unborn | dead => simp at stage
      case constructing =>
        rcases stage with ⟨_, _, other⟩ | ⟨init, ⟨coreType, same | other⟩ | ⟨other, _⟩⟩
          | ⟨both, set, _, same | other⟩
        case inr.inl.inl.inl =>
          obtain ⟨rfl, rfl⟩ := ClientPc.notifyTask.inj same
          exact Or.inr (Or.inl ⟨init, Or.inl ⟨coreType, Or.inr (by simp [State.notifyTask])⟩⟩)
        case inr.inr.inl =>
          obtain ⟨rfl, rfl⟩ := ClientPc.notifyTask.inj same
          exact Or.inr (Or.inr ⟨both, set, id, Or.inr (by simp [State.notifyTask])⟩)
        all_goals simp at other
      case destructing =>
        rcases stage with ⟨set, ⟨_, other⟩ | ⟨shape, ⟨_, same | other⟩ | other⟩⟩
        case inr.inl.inl =>
          obtain ⟨rfl, rfl⟩ := ClientPc.notifyTask.inj same
          exact ⟨set, Or.inr ⟨shape, Or.inl ⟨id, Or.inr (by simp [State.notifyTask])⟩⟩⟩
        all_goals simp at other

/-- An operation that has its value returns, or the constructor and the destructor go on. -/
theorem LifetimeInvariant.finish (inv : LifetimeInvariant s) {c : ClientId} {op : Operation}
    {id : Nat} {value : BitVec 64} (pc : s.client c = .getResult op id)
    (ready : s.results id = some value)
    : LifetimeInvariant (s.finish c op id value) := by
  obtain ⟨counts, returned, same⟩ := finish_eq s c op id value
  rw [same]
  cases inv with
  | alive alive set shape ordinary =>
      have mine := ordinary c
      rw [pc] at mine
      refine .alive (by cases op <;> simp [alive, Operation.lifetime, Lifetime.constructed]) set
        shape ?_
      intro other
      by_cases same : other = c
      · subst other
        cases op <;> simp_all [Operation.next, ClientPc.Ordinary, Operation.Ordinary]
      · simpa [same] using ordinary other
  | alone d idle stage =>
      obtain rfl := alone_client idle (by simp [pc] : s.client c ≠ .idle)
      cases here : s.lifetime <;> simp only [here, Lifetime.Stage, pc] at stage
      case unborn | dead => simp at stage
      case constructing =>
        rcases stage with ⟨_, _, other⟩ | ⟨init, ⟨coreType, other | same⟩ | ⟨other, _⟩⟩
          | ⟨both, set, _, other | same⟩
        case inr.inl.inl.inr =>
          obtain ⟨rfl, rfl⟩ := ClientPc.getResult.inj same
          refine .alone c (fun other different => by simp [different, idle]) ?_
          have allocated : s.allocated = true := by simp [State.allocated, ready]
          exact Or.inr (Or.inl ⟨init, Or.inr ⟨by simp [Operation.next], allocated⟩⟩)
        case inr.inr.inr =>
          obtain ⟨rfl, rfl⟩ := ClientPc.getResult.inj same
          refine .alive rfl set ⟨[.readPc], both, by simp⟩ (fun other => ?_)
          by_cases mine : other = c
          · simp [mine, Operation.next, ClientPc.Ordinary]
          · simp [mine, idle, ClientPc.Ordinary]
        all_goals simp at other
      case destructing =>
        rcases stage with ⟨set, ⟨_, other⟩ | ⟨shape, ⟨_, other | same⟩ | other⟩⟩
        case inr.inl.inr =>
          obtain ⟨rfl, rfl⟩ := ClientPc.getResult.inj same
          refine .alone c (fun other different => by simp [different, idle]) ?_
          exact ⟨set, Or.inr ⟨shape, Or.inr (by simp [Operation.next])⟩⟩
        all_goals simp at other

/-- Every admitted move keeps the invariant, by cases on the move. -/
theorem LifetimeInvariant.move (inv : LifetimeInvariant s) (worker : WorkerInvariant s)
    (move : Move vp s label after) (allowed : lifetimeGuard s label)
    : LifetimeInvariant after := by
  cases move with
  | call c op pc => exact inv.call pc allowed
  | pushTask c op pc => exact inv.pushTask worker pc
  | notifyTask c op id pc => exact inv.notifyTask pc
  | finish c op id value pc ready => exact inv.finish pc ready
  | setSimStarted _ _ _ pc | leaveLoop _ _ _ pc | stayInLoop _ _ pc | lockMemtask _ _ pc
  | testTrue _ _ pc | testFalse _ _ pc | sleepMemtask _ _ pc | takeMemtask _ _ _ _ pc
  | continueLoop _ _ pc | access _ _ _ pc | answer _ _ _ _ pc | clearSimStarted _ pc
  | busThrows _ _ _ pc =>
      exact inv.simulating (by rw [pc]; rfl) (by trivial) rfl rfl rfl rfl
  | joined c pc =>
      cases inv with
      | alive _ _ _ ordinary =>
          have mine := ordinary c
          simp [pc, ClientPc.Ordinary] at mine
      | alone d idle stage =>
          obtain rfl := alone_client idle (by simp [pc] : s.client c ≠ .idle)
          refine .alone c (fun other different => ?_) ?_
          · simp [State.returns, different, idle]
          · cases here : s.lifetime <;> simp [here, Lifetime.Stage, pc] at stage
            exact ⟨stage.1, stage.2, by simp [State.returns]⟩
  | spuriousClient c id pc =>
      refine inv.frame rfl rfl (fun set => set) (fun other => ?_)
      by_cases same : other = c
      · subst other
        exact Or.inr ⟨id, pc, by simp [State.wakeClient, pc]⟩
      · exact Or.inl (by simp [State.wakeClient, same])
  | notifyHandler _ _ _ _ _ notified | notifyMem _ _ _ _ _ _ _ notified =>
      obtain ⟨cv, client, rfl, same⟩ := notifyMemtask_frame notified
      exact inv.frame rfl rfl (fun set => set) same
  | setValue _ task value next pc =>
      refine inv.frame rfl rfl (fun set => ?_) (fun _ => Or.inl rfl)
      by_cases same : 0 = task.result
      · simp [State.allocated, ← same]
      · simpa [State.allocated, same] using set
  | _ => exact inv.frame rfl rfl (fun set => set) (fun _ => Or.inl rfl)

/-- An object before its constructor. -/
theorem LifetimeInvariant.initial (py : π) (bus : β) : LifetimeInvariant (State.initial py bus) :=
  .alone 0 (fun _ _ => rfl) ⟨rfl, rfl⟩

/-- The invariant holds in every state of every run that respects the lifetime. -/
theorem LifetimeInvariant.reaches {py : π} {bus : β}
    (reached : (coreSystem vp).Reaches lifetimeGuard (State.initial py bus) s)
    : LifetimeInvariant s := by
  have kept (before after : State π β)
      (inv : ChannelInvariant before ∧ LifetimeInvariant before)
      (moved : (coreSystem vp).Moves lifetimeGuard before after)
      : ChannelInvariant after ∧ LifetimeInvariant after := by
    obtain ⟨label, allowed, stepped⟩ := moved
    have move := step_move stepped
    exact ⟨inv.1.move move, inv.2.move inv.1.worker move allowed⟩
  exact (reached.invariant kept ⟨.initial py bus, .initial py bus⟩).2

end VcmlPydrofoil
