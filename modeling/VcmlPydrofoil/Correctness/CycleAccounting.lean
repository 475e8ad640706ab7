import VcmlPydrofoil.Correctness.StepCount
import VcmlPydrofoil.Model.Processor
import VcmlPydrofoil.Plugin.CycleReturns

/-! What VCML relies on when it takes differences of `cycle_count`, in every run on one OS thread.
It holds exactly as long as the counter fits the `int` in which the core keeps its copy.
-/

namespace VcmlPydrofoil

open Interaction (Tree Program)

variable {χ β : Type} {s after : State (World χ) β}

/-- Every value that `cycle_count` has returned is the counter at the end of the last completed
simulation: no two values of one simulation differ, none goes down, differences count the steps
between them, and the local time that is updated at some of the calls is the count at the last of
them.
-/
structure CycleAccounting (vp : Platform (World χ) β) (s : State (World χ) β) : Prop where
  counted : ∀ call ∈ s.log.cycleCounts, call.1.toNat = stepsAt s.cpu call.2
  constant
    : ∀ before ∈ s.log.cycleCounts,
        ∀ after ∈ s.log.cycleCounts,
          before.2 = after.2
          → before.1 = after.1
  ordered : s.log.cycleCounts.Pairwise (fun before after => before.1 ≤ after.1)
  differences
    : s.log.cycleCounts.Pairwise (fun before after =>
        (after.1 - before.1).toNat = stepsAt s.cpu after.2 - stepsAt s.cpu before.2)
  localTime
    : ∀ calls : List (BitVec 64 × Option (World χ)),
        calls.Sublist s.log.cycleCounts
        → ∃ time : LocalTime,
            (calls.map Prod.fst).foldlM LocalTime.update {} = some time
            ∧ time.cycles = (calls.getLast?.map (fun call => stepsAt s.cpu call.2)).getD 0
  returns
    : ∀ c,
        s.client c = .idle
        → lifecycleGuard s (.call c .cycleCount)
        → CanReturn vp s c .cycleCount

/-- The counters that the `int` carries: those that fit, and those whose upper half is all ones. -/
def Reportable (steps : Nat) : Prop := steps < 2 ^ 31 ∨ 2 ^ 64 - 2 ^ 31 ≤ steps ∧ steps < 2 ^ 64

/-- An `int` as an unsigned number of 64 bits. -/
theorem toNat_signExtend_int (value : BitVec 32)
    : (value.signExtend 64).toNat
      = if value.toNat < 2 ^ 31 then value.toNat else value.toNat + (2 ^ 64 - 2 ^ 32) := by
  have bound := value.isLt
  rw [BitVec.toNat_signExtend, BitVec.msb_eq_decide, BitVec.toNat_setWidth]
  rw [Nat.mod_eq_of_lt (bound.trans (by decide))]
  simp only [decide_eq_true_eq]
  split <;> split <;> omega

/-- What is reported is the counter exactly when the `int` carries it. -/
theorem reportedCycles_iff (steps : Nat)
    : (reportedCycles steps).toNat = steps ↔ Reportable steps := by
  unfold reportedCycles storedCycles Reportable
  rw [toNat_signExtend_int, BitVec.toNat_setWidth]
  by_cases fits : steps < 2 ^ 64
  · have stored : ((toUInt64 steps).getD 0).toNat = steps := by
      simp only [toUInt64, fits, ↓reduceIte, Option.getD_some, BitVec.toNat_ofNat]
      exact Nat.mod_eq_of_lt fits
    rw [stored]
    split <;> omega
  · have stored : ((toUInt64 steps).getD 0).toNat = 0 := by
      simp only [toUInt64, fits, ↓reduceIte, Option.getD_none]
      rfl
    rw [stored]
    simp
    omega

/-- Counts that never go down are all accepted, and the local time is the last of them: the
differences telescope, by induction on the list.
-/
theorem LocalTime.updates {values : List (BitVec 64)} (time : LocalTime)
    (counted : time.cycles = time.cycleCount.toNat)
    (ordered : (time.cycleCount :: values).Pairwise (· ≤ ·))
    : ∃ later,
        values.foldlM LocalTime.update time = some later
        ∧ later.cycles = (values.getLast?.getD time.cycleCount).toNat := by
  induction values generalizing time with
  | nil => exact ⟨time, rfl, counted⟩
  | cons value rest ih =>
      obtain ⟨above, tail⟩ := List.pairwise_cons.mp ordered
      have up : time.cycleCount ≤ value := above value List.mem_cons_self
      have accepted
          : time.update value
            = some { cycleCount := value, cycles := value.toNat } := by
        have bound : time.cycleCount.toNat ≤ value.toNat := up
        have down : ¬ value < time.cycleCount := BitVec.not_lt.mpr up
        have sum : time.cycles + (value - time.cycleCount).toNat = value.toNat := by
          rw [counted, BitVec.toNat_sub_of_le up]
          omega
        rw [LocalTime.update, if_neg down, sum]
      obtain ⟨later, updated, last⟩ := ih { cycleCount := value, cycles := value.toNat } rfl tail
      refine ⟨later, ?_, ?_⟩
      · rw [List.foldlM_cons, accepted]
        exact updated
      · rw [last, List.getLast?_cons]
        rfl

-----------------------------------------------------------------------------------------
-- Every run
-----------------------------------------------------------------------------------------

variable {vp : Platform (World χ) β}

/-- Values that are exact are what VCML relies on. -/
theorem Recorded.accounting
    (recorded : Recorded s.cpu s.log.completed s.log.cycleCounts)
    (counted : ∀ call ∈ s.log.cycleCounts, call.1.toNat = stepsAt s.cpu call.2)
    (returns
      : ∀ c,
          s.client c = .idle
          → lifecycleGuard s (.call c .cycleCount)
          → CanReturn vp s c .cycleCount)
    : CycleAccounting vp s := by
  have ordered : s.log.cycleCounts.Pairwise (fun before after => before.1 ≤ after.1) := by
    refine (List.pairwise_map.mp recorded.ordered).imp_of_mem fun first second le => ?_
    rw [BitVec.le_def, counted _ first, counted _ second]
    exact le
  constructor
  case counted => exact counted
  case constant =>
    intro before first after second same
    apply BitVec.eq_of_toNat_eq
    rw [counted before first, counted after second, same]
  case ordered => exact ordered
  case differences =>
    refine ordered.imp_of_mem fun first second le => ?_
    rw [BitVec.toNat_sub_of_le le, counted _ first, counted _ second]
  case localTime =>
    intro calls chosen
    have values : ((0 : BitVec 64) :: calls.map Prod.fst).Pairwise (· ≤ ·) := by
      refine List.pairwise_cons.mpr ⟨fun _ _ => Nat.zero_le _, List.pairwise_map.mpr ?_⟩
      exact ordered.sublist chosen
    obtain ⟨time, updated, last⟩ := LocalTime.updates {} rfl values
    refine ⟨time, updated, last.trans ?_⟩
    rw [List.getLast?_map]
    cases ends : calls.getLast? with
    | none => rfl
    | some call => exact counted call (chosen.subset (List.mem_of_getLast? ends))
  case returns => exact returns

/-- In every run in VCML's order, with any number of simulations of any length and calls of
`cycle_count` between them or inside their bus accesses, the accounting is exact when each call
finds a counter that the `int` carries, and only then. An exception of a bus access may end the
last simulation.
-/
theorem cycleAccounting_iff (ext : Pydrofoil χ) (bus : Bus β) {py : World χ} (fresh : py.Fresh)
    (start : β)
    (reached : (coreSystem (gluePlatform ext bus)).Reaches lifecycleGuard
      (State.initial py start) s)
    : CycleAccounting (gluePlatform ext bus) s
      ↔ ∀ call ∈ s.log.cycleCounts, Reportable (stepsAt s.cpu call.2) := by
  have inv := CycleInvariant.reaches fresh reached
  have reported {call : BitVec 64 × Option (World χ)} (member : call ∈ s.log.cycleCounts)
      : call.1.toNat = stepsAt s.cpu call.2 ↔ Reportable (stepsAt s.cpu call.2) := by
    rw [inv.recorded.reported call member]
    exact reportedCycles_iff _
  constructor
  · exact fun accounting call member => (reported member).mp (accounting.counted call member)
  · intro carried
    exact inv.recorded.accounting (fun call member => (reported member).mpr (carried call member))
      fun c idle allowed => inv.returns reached idle allowed

-----------------------------------------------------------------------------------------
-- Checked runs
-----------------------------------------------------------------------------------------

/-- The check of a run in VCML's order for the clients below `clients`. -/
def lifecycleCheck (clients : Nat) (s : State (World χ) β) (label : Label) : Bool :=
  unsuspendedCheck clients s label
  && match label with
    | .call _ (.construct _) | .call _ .endOfElaboration => s.log.completed.isEmpty
    | .call _ .destruct => false
    | _ => true

/-- A checked label is one of a run in VCML's order. -/
theorem lifecycleCheck_sound {clients : Nat} (s : State (World χ) β) (label : Label)
    (unused : s.Unused clients) (checked : lifecycleCheck clients s label = true)
    : lifecycleGuard s label := by
  obtain ⟨thread, order⟩ := Bool.and_eq_true_iff.mp checked
  refine ⟨unsuspendedCheck_sound s label unused thread, ?_⟩
  rintro c op rfl
  cases op with
  | construct coreType => exact List.isEmpty_iff.mp order
  | endOfElaboration => exact List.isEmpty_iff.mp order
  | destruct => exact absurd order Bool.false_ne_true
  | _ => trivial

/-- A checked run reaches its final state. -/
theorem lifecycle_reaches {py : World χ} {start : β} {clients : Nat} {labels : List Label}
    {finish : State (World χ) β}
    (ran : (coreSystem vp).runChecked (lifecycleCheck clients) (State.initial py start) labels
      = some finish)
    : (coreSystem vp).Reaches lifecycleGuard (State.initial py start) finish := by
  obtain ⟨executed, admitted, _⟩ := Transition.System.runChecked_run lifecycleCheck_sound
    (fun before label after unused checked stepped =>
      threadCheck_unused before label after unused
        (Bool.and_eq_true_iff.mp (Bool.and_eq_true_iff.mp checked).1).1 stepped)
    (fun _ _ => rfl) ran
  exact Transition.System.run_reaches executed admitted

/-- A CPU that stores one word in every step. -/
def storingCpu : Pydrofoil Unit where
  create _ _ _ := .ret (some ())
  callbacks := true
  step _ := .ask (.write 0x10000000 42) (fun written => .ret (written, ()))
  readRegister _ _ := some 0
  writeRegister _ _ _ := (true, ())
  setVerbosity _ _ := (true, ())

/-- An operation of the first coroutine with one task, on which the worker takes `steps` steps. -/
def taskLabels (c : ClientId) (op : Operation) (steps : Nat) : List Label :=
  [.call c op, .client c, .client c] ++ List.replicate steps (.worker 0) ++ [.client c]

/-- The labels of the construction and the end of elaboration. -/
def elaborationLabels : List Label :=
  taskLabels 0 (.construct "rv64") 8 ++ List.replicate 2 (.client 0)
    ++ List.replicate 8 (.worker 0) ++ [.client 0] ++ taskLabels 0 .endOfElaboration 8

/-- A simulation of one store: the count is read by another coroutine during the bus access, and
again when the simulation has returned.
-/
def countedLabels : List Label :=
  elaborationLabels ++ [.call 0 (.simulate 1)] ++ List.replicate 7 (.client 0)
    ++ List.replicate 9 (.worker 0) ++ List.replicate 3 (.client 0) ++ [.call 1 .cycleCount]
    ++ List.replicate 6 (.client 0) ++ List.replicate 7 (.worker 0) ++ List.replicate 5 (.client 0)
    ++ taskLabels 1 .cycleCount 9

/-- Witness: zero is returned during the simulation, and one after it. -/
theorem cycleAccounting_storingCpu
    : ∃ s : State (World Unit) Unit,
        s.log.cycleCounts.map (fun call => (call.1, stepsAt s.cpu call.2)) = [(0, 0), (1, 1)]
        ∧ CycleAccounting (gluePlatform storingCpu (scriptedPlatform none []).bus) s := by
  have ran
      : ((coreSystem (gluePlatform storingCpu (scriptedPlatform none []).bus)).runChecked
          (lifecycleCheck 2) (State.initial {} ()) countedLabels).map
            (fun s => s.log.cycleCounts.map (fun call => (call.1, stepsAt s.cpu call.2)))
        = some [(0, 0), (1, 1)] := by
    decide +kernel
  obtain ⟨s, executed, counts⟩ := Option.map_eq_some_iff.mp ran
  refine ⟨s, counts, (cycleAccounting_iff storingCpu _ (fun entry member => by cases member) ()
    (lifecycle_reaches executed)).mpr ?_⟩
  intro call member
  have counted := List.mem_map_of_mem (f := fun call => (call.1, stepsAt s.cpu call.2)) member
  rw [counts] at counted
  have cases : stepsAt s.cpu call.2 = 0 ∨ stepsAt s.cpu call.2 = 1 := by
    simp only [List.mem_cons, Prod.mk.injEq, List.not_mem_nil, or_false] at counted
    exact counted.imp And.right And.right
  exact Or.inl (by omega)

-----------------------------------------------------------------------------------------
-- Two to the power of 31 steps
-----------------------------------------------------------------------------------------

/-- A silent CPU counts its steps, by induction on their number. -/
theorem times_steppingCpu (count : Nat) (object : C Unit) {cpu : Cpu Unit}
    (built : object.cpu = some cpu)
    : Program.times (C.step (steppingCpu false)) count object
      = .ret (some (), { object with steps := object.steps + count }) := by
  induction count generalizing object with
  | zero => rfl
  | succ count ih =>
      obtain ⟨rv64, arg, callbacks, read, write, mem, handle, current, steps⟩ := object
      obtain rfl : current = some cpu := built
      refine (ih ⟨rv64, arg, callbacks, read, write, mem, handle, some cpu, steps + 1⟩ rfl).trans ?_
      rw [Nat.add_assoc, Nat.add_comm 1]

/-- The plugin of a silent CPU, with the end of a simulation in closed form. -/
def countingPlugin : Plugin (World Unit) :=
  { gluecode (steppingCpu false) with
    pydrofoilCpuSimulate := fun cpu steps world =>
      match world.object? cpu with
      | some object =>
          if object.cpu.isSome then
            .ret ((toInt steps.toNat).getD 0,
              world.update cpu { object with steps := object.steps + steps.toNat })
          else
            (gluecode (steppingCpu false)).pydrofoilCpuSimulate cpu steps world
      | none => (gluecode (steppingCpu false)).pydrofoilCpuSimulate cpu steps world }

/-- A function that returns without a callback is converted at once. -/
theorem toApiCall_ret {α γ : Type} {body : Py (World χ) α} {world next : World χ} {value : α}
    (default : γ) (convert : α → Option γ) (ran : body world = .ret (some value, next))
    : toApiCall (defExtern default convert body world)
      = .ret ((convert value).getD default, next) := by
  rw [defExtern, ran]
  rfl

/-- The simulation of a silent CPU in closed form. -/
theorem simulate_steppingCpu {cpu : Option Handle} {world : World Unit} {object : C Unit}
    (live : world.object? cpu = some object) (built : object.cpu.isSome) (steps : BitVec 64)
    : (gluecode (steppingCpu false)).pydrofoilCpuSimulate cpu steps world
      = .ret ((toInt steps.toNat).getD 0,
          world.update cpu { object with steps := object.steps + steps.toNat }) := by
  obtain ⟨inner, found⟩ := Option.isSome_iff_exists.mp built
  have ran
      : Gluecode.cpuSimulate (steppingCpu false) cpu steps world
        = .ret (some (steps.toNat : Int),
            world.update cpu { object with steps := object.steps + steps.toNat }) := by
    unfold Gluecode.cpuSimulate Gluecode.fromHandle
    rw [live]
    show (((Program.times (C.step (steppingCpu false)) steps.toNat object).bind _).bind _) = _
    rw [times_steppingCpu steps.toNat object found]
    rfl
  rw [gluecode]
  exact toApiCall_ret 0 toInt ran

/-- The closed form is what the glue code does. -/
theorem gluecode_steppingCpu : gluecode (steppingCpu false) = countingPlugin := by
  have same
      : (gluecode (steppingCpu false)).pydrofoilCpuSimulate
        = countingPlugin.pydrofoilCpuSimulate := by
    funext cpu steps world
    dsimp only [countingPlugin]
    cases live : world.object? cpu with
    | none => rfl
    | some object =>
        by_cases built : object.cpu.isSome = true
        · simp only [built, ↓reduceIte]
          exact simulate_steppingCpu live built steps
        · simp only [built, Bool.false_eq_true, ↓reduceIte]
  calc gluecode (steppingCpu false)
      = { gluecode (steppingCpu false) with
          pydrofoilCpuSimulate := (gluecode (steppingCpu false)).pydrofoilCpuSimulate } := rfl
    _ = countingPlugin := by
        rw [same]
        rfl

/-- The labels of a simulation without accesses, and of a call of `cycle_count` after it. -/
def silentLabels (cycles : BitVec 64) : List Label :=
  [.call 0 (.simulate cycles)] ++ List.replicate 7 (.client 0) ++ List.replicate 12 (.worker 0)
    ++ List.replicate 5 (.client 0) ++ taskLabels 0 .cycleCount 9

/-- After 2^31 steps `cycle_count` returns 2^64 - 2^31, and after as many more it returns zero: for
VCML the count goes down.
-/
theorem cycleAccounting_narrowed
    : ∃ s : State (World Unit) Unit,
        (coreSystem (gluePlatform (steppingCpu false) (scriptedPlatform none []).bus)).Reaches
          lifecycleGuard (State.initial {} ()) s
        ∧ s.log.cycleCounts.map (fun call => (call.1, stepsAt s.cpu call.2))
          = [(0xffffffff80000000, 2 ^ 31), (0, 2 ^ 32)]
        ∧ (s.log.cycleCounts.map Prod.fst).foldlM LocalTime.update {} = none
        ∧ ¬ CycleAccounting (gluePlatform (steppingCpu false) (scriptedPlatform none []).bus) s := by
  have ran
      : ((coreSystem (gluePlatform (steppingCpu false) (scriptedPlatform none []).bus)).runChecked
          (lifecycleCheck 1) (State.initial {} ())
          (elaborationLabels ++ silentLabels 0x80000000 ++ silentLabels 0x80000000)).map
            (fun s => s.log.cycleCounts.map (fun call => (call.1, stepsAt s.cpu call.2)))
        = some [(0xffffffff80000000, 2 ^ 31), (0, 2 ^ 32)] := by
    unfold gluePlatform
    rw [gluecode_steppingCpu]
    decide +kernel
  obtain ⟨s, executed, counts⟩ := Option.map_eq_some_iff.mp ran
  have values : s.log.cycleCounts.map Prod.fst = [0xffffffff80000000, 0] := by
    have firsts
        : s.log.cycleCounts.map Prod.fst
          = (s.log.cycleCounts.map fun call => (call.1, stepsAt s.cpu call.2)).map Prod.fst := by
      rw [List.map_map]
      rfl
    rw [firsts, counts]
    rfl
  have down : (s.log.cycleCounts.map Prod.fst).foldlM LocalTime.update {} = none := by
    rw [values]
    decide
  refine ⟨s, lifecycle_reaches executed, counts, down, fun accounting => ?_⟩
  obtain ⟨time, updated, _⟩ := accounting.localTime _ (List.Sublist.refl _)
  rw [down] at updated
  cases updated

end VcmlPydrofoil
