import VcmlPydrofoil.MemoryChannel.Progress

/-! The coroutines of one OS thread: while a bus access of `simulate` suspends its coroutine,
another one may call the core. Such a call waits in a circle exactly when it posts a task.
-/

namespace VcmlPydrofoil

open Interaction (Tree)

variable {π β : Type} {vp : Platform π β} {s after : State π β} {label : Label}

/-- A coroutine lets another one run only outside the core or inside a bus access, where
`send` calls `sync`.
-/
def ClientPc.yields : ClientPc → Bool
  | .idle | .access _ _ => true
  | _ => false

/-- A coroutine inside an operation, short of the destructor's join. -/
def ClientPc.engaged : ClientPc → Bool
  | .idle | .joinWorker => false
  | _ => true

/-- The constructor is called first, and `simulate` by one process only. Any other operation,
the destructor included, may be called while another coroutine is suspended.
-/
def Callable (s : State π β) : Operation → Prop
  | .construct _ => s.lifetime = .unborn
  | .simulate _ => s.lifetime = .alive ∧ ∀ c, (s.client c).simulates = false
  | _ => s.lifetime = .alive

/-- The clients are coroutines of one OS thread: one of them moves while the others are idle
or suspended.
-/
def threadGuard (s : State π β) : Label → Prop
  | .call c op => (∀ d, d ≠ c → (s.client d).yields = true) ∧ Callable s op
  | .client c | .busThrows c => ∀ d, d ≠ c → (s.client d).yields = true
  | _ => True

/-- No operation that posts a task is called while a coroutine is suspended in a bus access. -/
def NoTaskWhileSuspended (s : State π β) (label : Label) : Prop :=
  ∀ c op,
    label = .call c op
    → s.posts op = true
    → ∀ d id memtask, s.client d ≠ .access id memtask

/-- The thread waits for a task while the worker waits for an access that only the thread can
serve.
-/
def CircularWait (s : State π β) : Prop :=
  (∃ c op id, s.client c = .getResult op id ∧ s.results id = none)
  ∧ ∃ task request id next,
      s.worker = .getAnswer task request id next ∧ s.answers id = none

/-- One OS thread that calls no operation with a task while a coroutine is suspended. -/
def unsuspendedGuard (s : State π β) (label : Label) : Prop :=
  threadGuard s label ∧ NoTaskWhileSuspended s label

-----------------------------------------------------------------------------------------
-- One coroutine at a time waits for the worker
-----------------------------------------------------------------------------------------

/-- The task of the callback that the worker is in. -/
def WorkerPc.callbackTask : WorkerPc π → Option PythonTask
  | .post task _ _ | .notifyMem task _ _ _ | .getAnswer task _ _ _ => some task
  | _ => none

/-- One coroutine is engaged. Until a bus access throws, `sim_started` follows it, and only
callbacks of a Simulate task go on to post an access.
-/
structure ThreadInvariant (s : State π β) : Prop where
  core : CoreInvariant s
  single : ∀ c d, (s.client c).engaged = true → (s.client d).engaged = true → c = d
  flags : s.log.abandoned = [] → FlagInvariant s
  callbacks
    : s.log.abandoned = []
      → ∀ task, s.worker.callbackTask = some task → task.pyFunct = .simulate

/-- Only a call with a task engages a coroutine. -/
theorem Move.engaged (move : Move vp s label after) {c : ClientId}
    (engaged : (after.client c).engaged = true)
    : (s.client c).engaged = true ∨ ∃ op, label = .call c op ∧ s.posts op = true := by
  have still {d : ClientId} {pc : ClientPc} (busy : (s.client d).engaged = true)
      (later : (Function.update s.client d pc c).engaged = true)
      : (s.client c).engaged = true := by
    by_cases same : c = d
    · exact same ▸ busy
    · rwa [Function.update_of_ne same] at later
  cases move with
  | call d op pc =>
      rcases call_cases s d op pc with ⟨posts, same⟩ | ⟨_, _, _, same⟩ <;> rw [same] at engaged
      all_goals
        by_cases mine : c = d
        · subst d
          first
            | exact Or.inr ⟨op, rfl, posts⟩
            | cases op <;> simp [Operation.withoutTask, ClientPc.engaged] at engaged
        · exact Or.inl (by simpa [mine] using engaged)
  | finish d op id value pc =>
      obtain ⟨counts, returned, same⟩ := finish_eq s d op id value
      rw [same] at engaged
      exact Or.inl (still (by rw [pc]; rfl) engaged)
  | joined d pc =>
      left
      by_cases mine : c = d
      · simp [State.returns, mine, ClientPc.engaged] at engaged
      · simpa [State.returns, mine] using engaged
  | pushTask _ _ pc | setSimStarted _ _ _ pc | notifyTask _ _ _ pc | leaveLoop _ _ _ pc
  | stayInLoop _ _ pc | lockMemtask _ _ pc | testTrue _ _ pc | testFalse _ _ pc
  | sleepMemtask _ _ pc | takeMemtask _ _ _ _ pc | continueLoop _ _ pc | access _ _ _ pc
  | answer _ _ _ _ pc | clearSimStarted _ pc | busThrows _ _ _ pc | spuriousClient _ _ pc =>
      exact Or.inl (still (by rw [pc]; rfl) engaged)
  | notifyHandler _ _ _ _ _ notified | notifyMem _ _ _ _ _ _ _ notified =>
      have same := notifyMemtask_map ClientPc.engaged (fun _ => rfl) notified c
      exact Or.inl (same ▸ engaged)
  | _ => exact Or.inl engaged

/-- Only a callback that finds `sim_started` set goes on to post an access. -/
theorem Move.callbackTask (move : Move vp s label after) {task : PythonTask}
    (inside : after.worker.callbackTask = some task)
    : s.worker.callbackTask = some task
      ∨ s.simStarted = true
        ∧ ∃ request next, s.worker = .handler task (.ask (.callback request) next) := by
  cases move with
  | call c op pc =>
      rcases call_cases s c op pc with ⟨_, same⟩ | ⟨_, _, _, same⟩ <;> rw [same] at inside <;>
        exact Or.inl inside
  | notifyTask c op id =>
      rcases notifyTask_worker s c op id with ⟨_, woken⟩ | ⟨_, same⟩
      · simp [woken, WorkerPc.callbackTask] at inside
      · exact Or.inl (same ▸ inside)
  | finish c op id value =>
      obtain ⟨counts, returned, same⟩ := finish_eq s c op id value
      rw [same] at inside
      exact Or.inl inside
  | beginCallback wake found request next pc _ started =>
      obtain rfl : found = task := Option.some.inj inside
      exact Or.inr ⟨started, request, next, pc⟩
  | pushMemtask _ _ _ _ pc | notifyMem _ _ _ _ _ pc => exact Or.inl (by rw [pc]; exact inside)
  | pushTask | setSimStarted | leaveLoop | stayInLoop | lockMemtask | testTrue | testFalse
  | sleepMemtask | takeMemtask | continueLoop | access | answer | clearSimStarted | joined
  | busThrows | spuriousClient =>
      exact Or.inl inside
  | _ => exact nomatch inside

/-- A client with the flag set is engaged. -/
theorem ClientPc.engaged_of_flagged {pc : ClientPc} (flagged : pc.flagged = true)
    : pc.engaged = true := by
  cases pc <;> first | rfl | exact flagged

/-- A client that waits for a task is engaged. -/
theorem ClientPc.engaged_of_current {pc : ClientPc} {entry : Funct × Nat}
    (current : pc.current = some entry)
    : pc.engaged = true := by
  cases pc <;> first | rfl | simp [ClientPc.current] at current

/-- A callback that finds the flag set belongs to the one engaged coroutine, which simulates. -/
theorem ThreadInvariant.begins (inv : ThreadInvariant s) (completed : s.log.abandoned = [])
    {task : PythonTask} {request : MemCallback} {next : request.Reply → Script π}
    (started : s.simStarted = true)
    (pc : s.worker = .handler task (.ask (.callback request) next))
    : task.pyFunct = .simulate := by
  have coherent := inv.core.channel.worker.coherent
  rw [pc] at coherent
  obtain ⟨c, flagged⟩ := (inv.flags completed).flag.mp started
  obtain ⟨d, current⟩ := inv.core.poster completed (by rw [pc]; rfl) coherent.callback.1
  have same := inv.single c d (ClientPc.engaged_of_flagged flagged)
    (ClientPc.engaged_of_current current)
  exact ClientPc.current_of_simulates (ClientPc.simulates_of_flagged (same ▸ flagged)) current

/-- Every move keeps one coroutine engaged when no task is posted during a suspension. -/
theorem ThreadInvariant.move (inv : ThreadInvariant s) (move : Move vp s label after)
    (allowed : threadGuard s label) (condition : NoTaskWhileSuspended s label)
    : ThreadInvariant after := by
  have alone {c d : ClientId} {op : Operation} (called : label = .call c op)
      (posts : s.posts op = true) (engaged : (s.client d).engaged = true)
      : d = c := by
    by_contra different
    subst called
    have yields := allowed.1 d different
    have awake := condition c op rfl posts d
    cases pc : s.client d <;> simp_all [ClientPc.yields, ClientPc.engaged]
  constructor
  case core => exact inv.core.move move
  case single =>
    intro c d first second
    rcases move.engaged first with old | ⟨op, called, posts⟩
    · rcases move.engaged second with also | ⟨op, called, posts⟩
      · exact inv.single c d old also
      · exact alone called posts old
    · rcases move.engaged second with also | ⟨_, same, _⟩
      · exact (alone called posts also).symm
      · simp only [called, Label.call.injEq] at same
        exact same.1
  case flags =>
    intro completed
    obtain ⟨completes, before⟩ := move.completes completed
    refine (inv.flags before).move move completes ?_
    rintro c cycles rfl
    exact allowed.2.2
  case callbacks =>
    intro completed task inside
    have before := (move.completes completed).2
    rcases move.callbackTask inside with old | ⟨started, request, next, pc⟩
    · exact inv.callbacks before task old
    · exact inv.begins before started pc

/-- Nobody is engaged before the constructor. -/
theorem ThreadInvariant.initial (py : π) (bus : β) : ThreadInvariant (State.initial py bus) where
  core := .initial py bus
  single := by simp [State.initial, ClientPc.engaged]
  flags := fun _ => (SimulationInvariant.initial py bus).flags
  callbacks := by simp [State.initial, WorkerPc.callbackTask]

/-- While one coroutine is engaged, the worker waits for an access only when that coroutine
simulates, and then it does not wait for a task.
-/
theorem ThreadInvariant.not_circular (inv : ThreadInvariant s) : ¬ CircularWait s := by
  rintro ⟨⟨c, op, id, waits, _⟩, task, request, access, next, pc, unanswered⟩
  have completed : s.log.abandoned = [] := by
    by_contra thrown
    rcases inv.core.exceptions.doomed thrown with ⟨other, ended⟩ | ⟨found, other, pending, broken⟩
    · simp [pc] at ended
    · simp only [pc, WorkerPc.pending, Option.some.injEq, Prod.mk.injEq] at pending
      simp [← pending.2, unanswered] at broken
  have simulate := inv.callbacks completed task (by rw [pc]; rfl)
  have coherent := inv.core.channel.worker.coherent
  rw [pc] at coherent
  obtain ⟨d, current⟩ := inv.core.poster completed (by rw [pc]; rfl) coherent.1
  have same := inv.single d c (ClientPc.engaged_of_current current) (by rw [waits]; rfl)
  rw [same, waits, simulate] at current
  cases op <;> simp [ClientPc.current, Operation.pyFunct] at current
  exact (inv.flags completed).noResult c _ id waits

-----------------------------------------------------------------------------------------
-- A task during a suspension
-----------------------------------------------------------------------------------------

/-- The steps of a coroutine's own operation are admitted while the others are suspended. -/
theorem unsuspended_client {c : ClientId} (running : s.aborted = false)
    (others : ∀ d, d ≠ c → (s.client d).yields = true)
    (stepped : s.clientStep vp c = some after)
    : (coreSystem vp).Moves unsuspendedGuard s after :=
  .of_step (show unsuspendedGuard s (.client c) from ⟨others, fun _ _ called => Label.noConfusion called⟩)
    ((step_eq running _).trans stepped)

/-- An operation that is about to push its task comes to wait for it, whatever the worker does. -/
theorem pushed_waits (vp : Platform π β) (s : State π β) {c : ClientId} {op : Operation}
    (running : s.aborted = false) (others : ∀ d, d ≠ c → (s.client d).yields = true)
    (free : s.taskMutex = false) (pc : s.client c = .push op) (noSimulation : ∀ cycles, op ≠ .simulate cycles)
    : ∃ waiting,
        (coreSystem vp).Reaches unsuspendedGuard s waiting
        ∧ waiting.client = Function.update s.client c (.getResult op s.nextTask)
        ∧ waiting.results = s.results ∧ waiting.answers = s.answers
        ∧ (s.worker ≠ .asleep → waiting.worker = s.worker) := by
  have pushed : (s.pushTask c op).client = Function.update s.client c (.notifyTask op s.nextTask) := by
    cases op with
    | simulate cycles => exact absurd rfl (noSimulation cycles)
    | _ => rfl
  have notified
      : ((s.pushTask c op).notifyTask c op s.nextTask).client
        = Function.update s.client c (.getResult op s.nextTask) := by
    cases op with
    | simulate cycles => exact absurd rfl (noSimulation cycles)
    | _ => simp [State.notifyTask, pushed]
  have first : s.clientStep vp c = some (s.pushTask c op) := by
    simp [State.clientStep, pc, free]
  have second
      : (s.pushTask c op).clientStep vp c
        = some ((s.pushTask c op).notifyTask c op s.nextTask) := by
    simp [State.clientStep, pushed]
  have still (d : ClientId) (different : d ≠ c) : ((s.pushTask c op).client d).yields = true := by
    rw [pushed, Function.update_of_ne different]
    exact others d different
  refine ⟨(s.pushTask c op).notifyTask c op s.nextTask,
    .head (unsuspended_client running others first)
      (.single (unsuspended_client (s := s.pushTask c op) running still second)),
    notified, rfl, rfl, fun awake => ?_⟩
  rcases notifyTask_worker (s.pushTask c op) c op s.nextTask with ⟨asleep, _⟩ | ⟨_, same⟩
  · exact absurd asleep awake
  · exact same

/-- A worker with an unanswered access in flight comes to wait for its answer. -/
theorem pending_waits (vp : Platform π β) {request : MemCallback} {id : Nat}
    (pending : s.worker.pending = some (request, id))
    : ∃ waiting,
        (coreSystem vp).Reaches unsuspendedGuard s waiting
        ∧ (∃ task next, waiting.worker = .getAnswer task request id next)
        ∧ waiting.results = s.results ∧ waiting.answers = s.answers
        ∧ ∀ c, (∀ ticket, s.client c ≠ .asleep ticket) → waiting.client c = s.client c := by
  cases pc : s.worker with
  | notifyMem task found ticket next =>
      obtain ⟨rfl, rfl⟩ : found = request ∧ ticket = id := by simpa [pc, WorkerPc.pending] using pending
      obtain ⟨after, notified⟩ := notifyMemtask_enabled s
      have stepped
          : s.workerStep vp 0
            = some { after with worker := .getAnswer task found ticket next } := by
        simp [State.workerStep, pc, notified]
      obtain ⟨cv, client, rfl, woken⟩ := notifyMemtask_frame notified
      have moved : (coreSystem vp).Moves unsuspendedGuard s _ :=
        .of_step (show unsuspendedGuard s (.worker 0) from
          ⟨trivial, fun _ _ called => Label.noConfusion called⟩) (worker_step stepped)
      refine ⟨_, .single moved, ⟨task, next, rfl⟩, rfl, rfl, fun c awake => ?_⟩
      rcases woken c with same | ⟨ticket, asleep, _⟩
      · exact same
      · exact absurd asleep (awake ticket)
  | getAnswer task found ticket next =>
      obtain ⟨rfl, rfl⟩ : found = request ∧ ticket = id := by simpa [pc, WorkerPc.pending] using pending
      exact ⟨s, .refl, ⟨task, next, pc⟩, rfl, rfl, fun _ _ => rfl⟩
  | _ => simp [pc, WorkerPc.pending] at pending

/-- A call that posts a task while a coroutine is suspended in a bus access leads to a
circular wait.
-/
theorem ThreadInvariant.circular (vp : Platform π β) (inv : ThreadInvariant s) {c d : ClientId} {op : Operation}
    {id : Nat} {memtask : MemAccess} (idle : s.client c = .idle)
    (allowed : threadGuard s (.call c op)) (posts : s.posts op = true)
    (suspended : s.client d = .access id memtask)
    : ∃ waiting,
        (coreSystem vp).Reaches unsuspendedGuard (s.call c op) waiting
        ∧ CircularWait waiting := by
  have worker := inv.core.channel.worker
  obtain ⟨request, access, pending, _, _, _, unanswered⟩ :=
    inv.core.access.phase.of_serving (show (s.client d).serving = some memtask by rw [suspended]; rfl)
  have noSimulation (cycles : BitVec 64) : op ≠ .simulate cycles := by
    rintro rfl
    have := allowed.2.2 d
    simp [suspended, ClientPc.simulates, ClientPc.inSimulate] at this
  have free : s.taskMutex = false := by
    rw [worker.mutex]
    cases pc : s.worker <;> simp_all [WorkerPc.pending, WorkerPc.locksTask]
  have awake : s.worker ≠ .asleep := fun asleep => by simp [asleep, WorkerPc.pending] at pending
  have fresh := inv.core.unset_next
  rcases call_cases s c op idle with ⟨_, same⟩ | ⟨refused, _⟩
  · have client : (s.call c op).client = Function.update s.client c (.push op) := by rw [same]
    have worker : (s.call c op).worker = s.worker := by rw [same]
    have results : (s.call c op).results = s.results := by rw [same]
    have answers : (s.call c op).answers = s.answers := by rw [same]
    have others (e : ClientId) (different : e ≠ c)
        : ((s.call c op).client e).yields = true := by
      rw [client, Function.update_of_ne different]
      exact allowed.1 e different
    have running : (s.call c op).aborted = false := by
      rw [State.aborted, worker]
      cases pc : s.worker <;> simp_all [WorkerPc.pending]
    obtain ⟨middle, reached, pushed, results', answers', still⟩ :=
      pushed_waits vp (s.call c op) running others (by rw [same]; exact free) (by simp [client])
        noSimulation
    have inFlight : middle.worker.pending = some (request, access) := by
      rw [still (worker ▸ awake), worker, pending]
    obtain ⟨waiting, later, stuck, results'', answers'', clients⟩ := pending_waits vp inFlight
    have mine : middle.client c = .getResult op (s.call c op).nextTask := by simp [pushed]
    have next : (s.call c op).nextTask = s.nextTask := by rw [same]
    refine ⟨waiting, reached.trans later, ⟨c, op, s.nextTask, ?_, ?_⟩, ?_⟩
    · rw [clients c (by simp [mine]), mine, next]
    · rw [results'', results', results]
      exact fresh
    · obtain ⟨task, next, pc⟩ := stuck
      exact ⟨task, request, access, next, pc, by rw [answers'', answers', answers]; exact unanswered⟩
  · simp [posts] at refused

/-- The invariant holds in every state of every run of one OS thread that calls no operation
with a task during a suspension.
-/
theorem ThreadInvariant.reaches {start : State π β}
    (reached : (coreSystem vp).Reaches unsuspendedGuard start s)
    (initially : ThreadInvariant start)
    : ThreadInvariant s := by
  refine reached.invariant ?_ initially
  rintro before after inv ⟨label, ⟨allowed, condition⟩, stepped⟩
  exact inv.move (step_move stepped) allowed condition

/-- In every run of one OS thread in which no operation with a task is called while a coroutine
is suspended in a bus access, there is no circular wait; and the next label keeps it so for
every continuation exactly when it is no such call either.
-/
theorem thread_circularWait_iff (vp : Platform π β) (py : π) (bus : β) {s : State π β}
    (reached : (coreSystem vp).Reaches unsuspendedGuard (State.initial py bus) s)
    : ¬ CircularWait s
      ∧ ∀ label after,
          threadGuard s label
          → (coreSystem vp).step s label = some after
          → ((∀ s', (coreSystem vp).Reaches unsuspendedGuard after s' → ¬ CircularWait s')
              ↔ NoTaskWhileSuspended s label) := by
  have inv : ThreadInvariant s := .reaches reached (.initial py bus)
  refine ⟨inv.not_circular, fun label after allowed stepped => ⟨?_, ?_⟩⟩
  · rintro never c op rfl posts d id memtask suspended
    have running := (step_running stepped).2
    have idle : s.client c = .idle := by
      cases pc : s.client c <;> simp [State.threadStep, pc] at running ⊢
    have called : after = s.call c op := by
      simp only [State.threadStep, idle, Option.some.injEq] at running
      exact running.symm
    obtain ⟨waiting, later, circular⟩ := inv.circular vp idle allowed posts suspended
    exact never waiting (called ▸ later) circular
  · intro condition s' later
    have moved : (coreSystem vp).Moves unsuspendedGuard s after :=
      .of_step (show unsuspendedGuard s label from ⟨allowed, condition⟩) stepped
    exact (ThreadInvariant.reaches (.head moved later) inv).not_circular

-----------------------------------------------------------------------------------------
-- A suspended store
-----------------------------------------------------------------------------------------

/-- The check of one OS thread for runs of the clients below `clients`. -/
def threadCheck (clients : Nat) (s : State π β) : Label → Bool
  | .call c op =>
      c < clients
      && (List.range clients).all (fun d => d == c || (s.client d).yields)
      && match op with
        | .construct _ => s.lifetime == .unborn
        | .simulate _ =>
            s.lifetime == .alive && (List.range clients).all (fun d => !(s.client d).simulates)
        | _ => s.lifetime == .alive
  | .client c | .busThrows c =>
      (List.range clients).all (fun d => d == c || (s.client d).yields)
  | _ => true

/-- The other clients of a checked label are idle or suspended. -/
theorem State.Unused.yields {clients : Nat} (unused : s.Unused clients) {c : ClientId}
    (checked : (List.range clients).all (fun d => d == c || (s.client d).yields) = true)
    (d : ClientId) (different : d ≠ c)
    : (s.client d).yields = true := by
  have := unused.all checked (fun d idle => by simp [idle, ClientPc.yields]) d
  simpa [different] using this

/-- A checked label is one of a single OS thread. -/
theorem threadCheck_sound {clients : Nat} (s : State π β) (label : Label)
    (unused : s.Unused clients) (checked : threadCheck clients s label = true)
    : threadGuard s label := by
  cases label with
  | call c op =>
      simp only [threadCheck, Bool.and_eq_true] at checked
      refine ⟨unused.yields checked.1.2, ?_⟩
      cases op with
      | simulate cycles =>
          have ⟨alive, nobody⟩ := Bool.and_eq_true_iff.mp checked.2
          refine ⟨by simpa using alive, fun d => ?_⟩
          have := unused.all nobody (fun d idle => by rw [idle]; rfl) d
          simpa using this
      | _ => exact eq_of_beq checked.2
  | client c => exact unused.yields checked
  | busThrows c => exact unused.yields checked
  | _ => trivial

/-- Only a checked client starts to move. -/
theorem threadCheck_unused {clients : Nat} (s : State π β) (label : Label) (after : State π β)
    (unused : s.Unused clients) (checked : threadCheck clients s label = true)
    (stepped : (coreSystem vp).step s label = some after)
    : after.Unused clients := by
  intro c beyond
  refine idle_stays (step_move stepped) (unused c beyond) ?_
  rintro op rfl
  simp only [threadCheck, Bool.and_eq_true, decide_eq_true_eq] at checked
  exact absurd checked.1.1 (Nat.not_lt.mpr beyond)

/-- The check of one OS thread that calls no operation with a task during a suspension. -/
def unsuspendedCheck (clients : Nat) (s : State π β) (label : Label) : Bool :=
  threadCheck clients s label
  && match label with
    | .call _ op =>
        !s.posts op
        || (List.range clients).all (fun d => !(s.client d matches .access _ _))
    | _ => true

/-- A checked label posts no task during a suspension. -/
theorem unsuspendedCheck_sound {clients : Nat} (s : State π β) (label : Label)
    (unused : s.Unused clients) (checked : unsuspendedCheck clients s label = true)
    : unsuspendedGuard s label := by
  obtain ⟨thread, condition⟩ := Bool.and_eq_true_iff.mp checked
  refine ⟨threadCheck_sound s label unused thread, ?_⟩
  rintro c op rfl posts d id memtask suspended
  simp only [posts, Bool.not_true, Bool.false_or] at condition
  have := unused.all condition (fun d idle => by rw [idle]; rfl) d
  simp [suspended] at this

/-- A simulation of one store up to its suspension in the bus access. -/
def suspendedLabels : List Label :=
  constructionLabels ++ [.call 0 (.simulate 1)] ++ List.replicate 3 (.client 0)
    ++ List.replicate 8 (.worker 0) ++ List.replicate 4 (.client 0)

/-- Witness: during the suspension `cycle_count` is served without a task. -/
theorem thread_circularWait_cycleCount
    : ∃ s : State Unit Unit,
        s.client 0 = .access 2 (sampleStore.toMemAccess 0)
        ∧ s.log.cycleCounts.length = 1
        ∧ ¬ CircularWait s := by
  have ran
      : ((coreSystem (scriptedPlatform (some 1) [sampleStore])).runChecked (unsuspendedCheck 2)
          (State.initial () ()) (suspendedLabels ++ [.call 1 .cycleCount])).map
            (fun s => (s.client 0, s.log.cycleCounts.length))
        = some (.access 2 (sampleStore.toMemAccess 0), 1) := by
    decide
  obtain ⟨s, executed, same⟩ := Option.map_eq_some_iff.mp ran
  simp only [Prod.mk.injEq] at same
  obtain ⟨run, admitted, _⟩ := Transition.System.runChecked_run unsuspendedCheck_sound
    (fun before label after unused checked stepped =>
      threadCheck_unused before label after unused (Bool.and_eq_true_iff.mp checked).1 stepped)
    (fun _ _ => rfl) executed
  exact ⟨s, same.1, same.2,
    (thread_circularWait_iff _ () () (Transition.System.run_reaches run admitted)).1⟩

/-- A register read during the suspension of a store, as on a debugger's halt, waits in a
circle: the worker waits for the store, and the thread that serves it waits for the worker.
-/
theorem thread_circularWait_readRegDbg
    : ∃ s : State Unit Unit,
        (coreSystem (scriptedPlatform (some 1) [sampleStore])).Reaches threadGuard
          (State.initial () ()) s
        ∧ s.client 0 = .access 2 (sampleStore.toMemAccess 0)
        ∧ s.client 1 = .getResult (.readRegDbg 0 8) 3
        ∧ CircularWait s := by
  have ran
      : ((coreSystem (scriptedPlatform (some 1) [sampleStore])).runChecked (threadCheck 2)
          (State.initial () ())
          (suspendedLabels ++ [.call 1 (.readRegDbg 0 8), .client 1, .client 1])).map
            (fun s => ((s.client 0, s.client 1, s.results 3), s.worker.pending, s.answers 0,
              s.worker matches .getAnswer _ _ _ _))
        = some ((.access 2 (sampleStore.toMemAccess 0), .getResult (.readRegDbg 0 8) 3, none),
            some (sampleStore, 0), none, true) := by
    decide
  obtain ⟨s, executed, same⟩ := Option.map_eq_some_iff.mp ran
  simp only [Prod.mk.injEq] at same
  obtain ⟨⟨suspended, waits, unset⟩, pending, unanswered, getAnswer⟩ := same
  obtain ⟨run, admitted, _⟩ := Transition.System.runChecked_run threadCheck_sound
    threadCheck_unused (fun _ _ => rfl) executed
  refine ⟨s, Transition.System.run_reaches run admitted, suspended, waits,
    ⟨1, _, 3, waits, unset⟩, ?_⟩
  cases pc : s.worker with
  | getAnswer task request id next =>
      simp only [pc, WorkerPc.pending, Option.some.injEq, Prod.mk.injEq] at pending
      exact ⟨task, request, id, next, rfl, pending.2 ▸ unanswered⟩
  | _ => simp [pc] at getAnswer

end VcmlPydrofoil
