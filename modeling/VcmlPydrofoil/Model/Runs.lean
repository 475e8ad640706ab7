import VcmlPydrofoil.Model.Moves

/-! The runs that callers of the core can produce, as guards on the labels. -/

namespace VcmlPydrofoil

variable {π β : Type}

/-- A client inside `simulate`, after its push. -/
def ClientPc.inSimulate : ClientPc → Bool
  | .setSimStarted .. | .notifyTask (.simulate _) _ | .testDone _ | .lockMemtask _
  | .testMemtask _ | .sleepMemtask _ | .asleep _ | .takeMemtask _ | .access .. | .answer ..
  | .clearSimStarted => true
  | _ => false

/-- Calls respect the lifetime of the object: the constructor comes first, and the destructor
runs last, when no operation is in progress.
-/
def lifetimeGuard (s : State π β) : Label → Prop
  | .call _ (.construct _) => s.lifetime = .unborn
  | .call _ .destruct => s.lifetime = .alive ∧ ∀ c, s.client c = .idle
  | .call _ _ => s.lifetime = .alive
  | _ => True

/-- Every operation completes: no bus access throws. -/
def completingGuard (s : State π β) : Label → Prop
  | .busThrows _ => False
  | label => lifetimeGuard s label

/-- A client that runs `simulate`, from the call on. -/
def ClientPc.simulates : ClientPc → Bool
  | .push (.simulate _) => true
  | pc => pc.inSimulate

/-- `simulate` is called only while no client runs it: the kernel runs one simulation at a
time.
-/
def OneSimulation (s : State π β) (label : Label) : Prop :=
  ∀ c cycles, label = .call c (.simulate cycles) → ∀ d, (s.client d).simulates = false

/-- Operations complete, with one simulation at a time. -/
def simulationGuard (s : State π β) (label : Label) : Prop :=
  completingGuard s label ∧ OneSimulation s label

/-- Operations run one after the other: a call waits until every client is idle. -/
def sequentialGuard (s : State π β) : Label → Prop
  | .call c op => lifetimeGuard s (.call c op) ∧ ∀ other, s.client other = .idle
  | .busThrows _ => False
  | _ => True

/-- Operations that complete respect the lifetime. -/
theorem lifetimeGuard_of_completing (s : State π β) (label : Label)
    (allowed : completingGuard s label)
    : lifetimeGuard s label := by
  cases label <;> first | exact allowed | trivial

/-- Operations that respect the lifetime complete when no bus access throws. -/
theorem completingGuard_of_lifetime (s : State π β) (label : Label)
    (allowed : lifetimeGuard s label) (completes : ∀ c, label ≠ .busThrows c)
    : completingGuard s label := by
  cases label with
  | busThrows c => exact completes c rfl
  | _ => exact allowed

/-- The operations of sequential callers complete. -/
theorem completingGuard_of_sequential (s : State π β) (label : Label)
    (allowed : sequentialGuard s label)
    : completingGuard s label := by
  cases label <;> first | exact allowed.1 | exact allowed

/-- Sequential callers run one simulation at a time. -/
theorem simulationGuard_of_sequential (s : State π β) (label : Label)
    (allowed : sequentialGuard s label)
    : simulationGuard s label := by
  refine ⟨completingGuard_of_sequential s label allowed, ?_⟩
  rintro c cycles rfl d
  rw [allowed.2 d]
  rfl

/-- One simulation at a time is a run in which operations complete. -/
theorem completingGuard_of_simulation (s : State π β) (label : Label)
    (allowed : simulationGuard s label)
    : completingGuard s label :=
  allowed.1

-----------------------------------------------------------------------------------------
-- Checked runs
-----------------------------------------------------------------------------------------

/-- The clients below `clients` are idle. -/
def State.allIdle (s : State π β) (clients : Nat) : Bool :=
  (List.range clients).all (fun c => s.client c == .idle)

/-- The lifetime guard for runs of the clients below `clients`. -/
def lifetimeCheck (clients : Nat) (s : State π β) : Label → Bool
  | .call c (.construct _) => c < clients && s.lifetime == .unborn
  | .call c .destruct => c < clients && s.lifetime == .alive && s.allIdle clients
  | .call c _ => c < clients && s.lifetime == .alive
  | _ => true

/-- The guard of sequential callers for runs of the clients below `clients`. -/
def sequentialCheck (clients : Nat) (s : State π β) : Label → Bool
  | .call c op => lifetimeCheck clients s (.call c op) && s.allIdle clients
  | .busThrows _ => false
  | _ => true

/-- No client from `clients` on ever called an operation. -/
def State.Unused (clients : Nat) (s : State π β) : Prop :=
  ∀ c, clients ≤ c → s.client c = .idle

/-- When no other client is in use, what holds of the clients below holds of all. -/
theorem State.Unused.all {clients : Nat} {s : State π β} (unused : s.Unused clients)
    {p : ClientId → Bool} (checked : (List.range clients).all p = true)
    (idle : ∀ c, s.client c = .idle → p c = true) (c : ClientId)
    : p c = true := by
  rcases Nat.lt_or_ge c clients with below | beyond
  · exact List.all_eq_true.mp checked c (List.mem_range.mpr below)
  · exact idle c (unused c beyond)

/-- When no other client is in use, the clients below are all there is to check. -/
theorem State.Unused.allIdle {clients : Nat} {s : State π β} (unused : s.Unused clients)
    (idle : s.allIdle clients = true) (c : ClientId)
    : s.client c = .idle :=
  eq_of_beq (unused.all idle (fun d same => by simp [same]) c)

/-- A call concerns its own client only. -/
theorem State.Unused.call {clients : Nat} {s : State π β} (unused : s.Unused clients)
    {c : ClientId} (inside : c < clients) (idle : s.client c = .idle) (op : Operation)
    : (s.call c op).Unused clients := by
  intro d beyond
  obtain ⟨_, _, _, _, _, client⟩ := call_started s op idle
  have different : d ≠ c := by
    rintro rfl
    exact absurd inside (Nat.not_lt.mpr beyond)
  rw [client, Function.update_of_ne different, unused d beyond]

/-- A checked label respects the lifetime. -/
theorem lifetimeCheck_sound {clients : Nat} (s : State π β) (label : Label)
    (unused : s.Unused clients) (checked : lifetimeCheck clients s label = true)
    : lifetimeGuard s label := by
  cases label with
  | call c op =>
      cases op <;> simp only [lifetimeCheck, Bool.and_eq_true, beq_iff_eq] at checked
      case destruct => exact ⟨checked.1.2, unused.allIdle checked.2⟩
      all_goals exact checked.2
  | _ => trivial

/-- A checked label is one of sequential callers. -/
theorem sequentialCheck_sound {clients : Nat} (s : State π β) (label : Label)
    (unused : s.Unused clients) (checked : sequentialCheck clients s label = true)
    : sequentialGuard s label := by
  cases label with
  | call c op =>
      simp only [sequentialCheck, Bool.and_eq_true] at checked
      exact ⟨lifetimeCheck_sound s _ unused checked.1, unused.allIdle checked.2⟩
  | busThrows c => simp [sequentialCheck] at checked
  | _ => trivial

/-- Only a checked client starts to move. -/
theorem lifetimeCheck_unused {vp : Platform π β} {clients : Nat} (s : State π β) (label : Label)
    (after : State π β) (unused : s.Unused clients)
    (checked : lifetimeCheck clients s label = true)
    (stepped : (coreSystem vp).step s label = some after)
    : after.Unused clients := by
  intro c beyond
  refine idle_stays (step_move stepped) (unused c beyond) ?_
  rintro op rfl
  have inside : c < clients := by
    cases op <;> simp only [lifetimeCheck, Bool.and_eq_true, decide_eq_true_eq] at checked
    case destruct => exact checked.1.1
    all_goals exact checked.1
  exact absurd inside (Nat.not_lt.mpr beyond)

/-- Only a checked client of a sequential run starts to move. -/
theorem sequentialCheck_unused {vp : Platform π β} {clients : Nat} (s : State π β) (label : Label)
    (after : State π β) (unused : s.Unused clients)
    (checked : sequentialCheck clients s label = true)
    (stepped : (coreSystem vp).step s label = some after)
    : after.Unused clients := by
  refine lifetimeCheck_unused s label after unused ?_ stepped
  cases label <;> first | exact (Bool.and_eq_true_iff.mp checked).1 | rfl

/-- A run that checks the lifetime reaches its final state. -/
theorem lifetime_reaches {vp : Platform π β} {py : π} {bus : β} {clients : Nat}
    {labels : List Label} {finish : State π β}
    (ran : (coreSystem vp).runChecked (lifetimeCheck clients) (State.initial py bus) labels
      = some finish)
    : (coreSystem vp).Reaches lifetimeGuard (State.initial py bus) finish := by
  obtain ⟨executed, admitted, _⟩ := Transition.System.runChecked_run lifetimeCheck_sound
    lifetimeCheck_unused (fun _ _ => rfl) ran
  exact Transition.System.run_reaches executed admitted

/-- A run that checks sequential callers is a run of theirs. -/
theorem sequential_run {vp : Platform π β} {py : π} {bus : β} {clients : Nat}
    {labels : List Label} {finish : State π β}
    (ran : (coreSystem vp).runChecked (sequentialCheck clients) (State.initial py bus) labels
      = some finish)
    : (coreSystem vp).run (State.initial py bus) labels = some finish
      ∧ (coreSystem vp).Admits sequentialGuard (State.initial py bus) labels
      ∧ finish.Unused clients :=
  Transition.System.runChecked_run sequentialCheck_sound sequentialCheck_unused (fun _ _ => rfl) ran

/-- A run that checks sequential callers reaches its final state. -/
theorem sequential_reaches {vp : Platform π β} {py : π} {bus : β} {clients : Nat}
    {labels : List Label} {finish : State π β}
    (ran : (coreSystem vp).runChecked (sequentialCheck clients) (State.initial py bus) labels
      = some finish)
    : (coreSystem vp).Reaches sequentialGuard (State.initial py bus) finish
      ∧ finish.Unused clients := by
  obtain ⟨executed, admitted, unused⟩ := sequential_run ran
  exact ⟨Transition.System.run_reaches executed admitted, unused⟩

/-- The labels of a construction, up to the worker's return to its loop. -/
def constructionLabels : List Label :=
  [.call 0 (.construct "rv64"), .client 0, .client 0] ++ List.replicate 9 (.worker 0)
    ++ List.replicate 3 (.client 0) ++ List.replicate 8 (.worker 0) ++ [.client 0]

/-- A plugin that allocates `handle` and whose CPU makes the same callbacks in every
simulation, whatever they return.
-/
def scriptedPlugin (handle : Option Handle) (requests : List MemCallback) : Plugin Unit where
  pydrofoilAllocateCpu _ py := .ret (handle, py)
  pydrofoilFreeCpu _ py := .ret (0, py)
  pydrofoilCpuSimulate _ steps py :=
    requests.foldr (fun request rest => .ask request (fun _ => rest)) (.ret (steps.setWidth 32, py))
  pydrofoilCpuCycles _ py := .ret (0, py)
  pydrofoilCpuPc _ py := .ret (0, py)
  pydrofoilCpuSetPc _ _ py := .ret (0, py)
  pydrofoilCpuSetRamReadWriteCallback _ py := .ret (0, py)

/-- The scripted plugin on a bus that accepts every access and reads zeros. -/
def scriptedPlatform (handle : Option Handle) (requests : List MemCallback) : Platform Unit Unit where
  api := scriptedPlugin handle requests
  bus := { read := fun _ _ _ _ => (.ok, 0, ()), write := fun _ _ _ _ => (.ok, ()) }

/-- One store into the RAM window. -/
def sampleStore : MemCallback := .writeMem 0x80000000 8 42

end VcmlPydrofoil
