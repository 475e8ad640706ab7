import VcmlPydrofoil.Plugin.Objects

/-! The step counter of a CPU under failures. A step counts itself before it runs, so the counter
is the number of completed steps exactly when none has raised since the last rebuild.
-/

namespace VcmlPydrofoil

open Interaction (Program)

variable {χ ω : Type} (ext : Pydrofoil χ) (answer : Environment ω)

/-- How many steps of the loop in `pydrofoil_cpu_simulate` complete: the first one that raises
ends it.
-/
def completedSteps : Nat → C χ → ω → Nat
  | 0, _, _ => 0
  | count + 1, object, env =>
      let out := (C.step ext).runIn answer object env
      if out.1.1.isSome then completedSteps count out.1.2 out.2 + 1 else 0

/-- The steps that completed and those that raised since the CPU object was rebuilt. -/
structure StepLedger where
  completed : Nat := 0
  raised : Nat := 0

/-- The steps that a call adds; a rebuild starts over. -/
def EntryPoint.record (entry : EntryPoint) (object : C χ) (env : ω) (ledger : StepLedger)
    : StepLedger :=
  match entry with
  | .simulate steps =>
      let done := completedSteps ext answer steps.toNat object env
      {
        completed := ledger.completed + done
        raised := ledger.raised + if done = steps.toNat then 0 else 1
      }
  | .reset | .setRamReadWriteCallback _ _ _ =>
      if ((entry.body ext).runIn answer object env).1.1.isSome then {} else ledger
  | .setVerbosity _ | .setPc _ => ledger

/-- The world and the environment between two calls, with the ledger of one CPU. -/
structure CountedSession (χ ω : Type) where
  world : World χ
  env : ω
  ledger : StepLedger := {}

namespace CountedSession

/-- One more call of an entry point. -/
def next (i : Option Handle) (session : CountedSession χ ω) (entry : EntryPoint)
    : CountedSession χ ω :=
  let out := entry.call ext answer i session.world session.env
  {
    world := out.2.1
    env := out.2.2
    ledger := match session.world.object? i with
      | some object => entry.record ext answer object session.env session.ledger
      | none => session.ledger
  }

/-- How many of `n` steps would complete now. -/
def completes (i : Option Handle) (session : CountedSession χ ω) (n : Nat) : Nat :=
  match session.world.object? i with
  | some object => completedSteps ext answer n object session.env
  | none => 0

/-- The counter of the CPU counts every step that has started. -/
def Counted (i : Option Handle) (session : CountedSession χ ω) : Prop :=
  ∃ object cpu,
    session.world.object? i = some object
    ∧ object.cpu = some cpu
    ∧ object.steps = session.ledger.completed + session.ledger.raised

end CountedSession

variable {ext answer} {object : C χ} {env : ω}

-----------------------------------------------------------------------------------------
-- One call
-----------------------------------------------------------------------------------------

/-- The loop completes exactly when all its steps do, and counts each step that starts; by
induction on the count.
-/
theorem times_step {cpu : Cpu χ} (built : object.cpu = some cpu) (count : Nat)
    : let out := (Program.times (C.step ext) count).runIn answer object env
      let done := completedSteps ext answer count object env
      done ≤ count
      ∧ (out.1.1 = if done = count then some () else none)
      ∧ out.1.2.steps = object.steps + done + (if done = count then 0 else 1)
      ∧ ∃ last, out.1.2.cpu = some last := by
  induction count generalizing object env cpu with
  | zero => exact ⟨Nat.le_refl 0, rfl, rfl, cpu, built⟩
  | succ count ih =>
      obtain ⟨completed, state, word, after, stepped⟩ := C.step_runIn answer env object built
      unfold completedSteps Program.times
      rw [Program.runIn_bind, stepped]
      cases completed with
      | false => exact ⟨Nat.zero_le _, rfl, rfl, _, rfl⟩
      | true =>
          have stays
              : ({
                  object with
                  mem := word, steps := object.steps + 1, cpu := some { cpu with state }
                } : C χ).cpu = some { cpu with state } := rfl
          obtain ⟨bounded, result, counted, last, still⟩ := ih stays
          simp only [↓reduceIte, Option.isSome_some, Nat.add_right_cancel_iff]
          refine ⟨by omega, result, ?_, last, still⟩
          dsimp only at counted ⊢
          omega

/-- A count is a C `int` exactly when it is below 2^31; otherwise the caller sees zero. -/
theorem toInt_status (n : Nat) : ((toInt (n : Int)).getD 0).toInt = n ↔ n < 2 ^ 31 := by
  unfold toInt
  by_cases fits : n < 2 ^ 31
  · have inRange : -2 ^ 31 ≤ (n : Int) ∧ (n : Int) < 2 ^ 31 := by omega
    rw [if_pos inRange, Option.getD_some, BitVec.toInt_ofInt]
    rw [Int.bmod_eq_of_le (by omega) (by omega)]
    exact iff_of_true rfl fits
  · have outside : ¬ (-2 ^ 31 ≤ (n : Int) ∧ (n : Int) < 2 ^ 31) := by omega
    have zero : (0 : BitVec 32).toInt = 0 := rfl
    rw [if_neg outside, Option.getD_none, zero]
    omega

/-- A reset that raises keeps CPU and counter; one that completes has a new CPU and no steps. -/
theorem reset_counted {cpu : Cpu χ} (built : object.cpu = some cpu)
    : let out := (C.reset ext).runIn answer object env
      (∃ last, out.1.2.cpu = some last)
      ∧ out.1.2.steps = if out.1.1.isSome then 0 else object.steps := by
  rw [C.reset_runIn]
  cases (C.construct answer ext object env).1 with
  | none => exact ⟨⟨cpu, built⟩, rfl⟩
  | some state => exact ⟨⟨_, rfl⟩, rfl⟩

/-- Every call keeps the counter in step with the ledger. -/
theorem EntryPoint.body_counted {cpu : Cpu χ} (built : object.cpu = some cpu)
    {ledger : StepLedger} (counted : object.steps = ledger.completed + ledger.raised)
    (entry : EntryPoint)
    : let out := (entry.body ext).runIn answer object env
      let next := entry.record ext answer object env ledger
      (∃ last, out.1.2.cpu = some last) ∧ out.1.2.steps = next.completed + next.raised := by
  cases entry with
  | simulate steps =>
      obtain ⟨_, _, counts, still⟩ :=
        times_step built steps.toNat
      unfold EntryPoint.body EntryPoint.record
      rw [Program.runIn_returning]
      dsimp only at counts ⊢
      exact ⟨still, by omega⟩
  | reset =>
      obtain ⟨still, counts⟩ := reset_counted built
      unfold EntryPoint.record EntryPoint.body
      rw [Program.runIn_returning]
      simp only [Option.isSome_map]
      refine ⟨still, ?_⟩
      rw [counts]
      split <;> simp [counted]
  | setRamReadWriteCallback read write payload =>
      unfold EntryPoint.record EntryPoint.body
      rw [Program.runIn_bind, C.setCallbacks_runIn]
      cases ext.callbacks with
      | false => exact ⟨⟨cpu, built⟩, counted⟩
      | true =>
          simp only [↓reduceIte]
          rw [Program.runIn_returning]
          have stays
              : ({
                  object with
                  read := some read, write := some write, mem := 0, callbacks := some payload
                } : C χ).cpu = some cpu := built
          obtain ⟨still, counts⟩ := reset_counted stays
          simp only [Option.isSome_map]
          refine ⟨still, ?_⟩
          rw [counts]
          split <;> simp [counted]
  | setVerbosity verbose =>
      unfold EntryPoint.body
      rw [Program.runIn_returning, C.onCpu_runIn answer env object built]
      exact ⟨⟨_, rfl⟩, counted⟩
  | setPc value =>
      unfold EntryPoint.body
      rw [Program.runIn_returning, C.onCpu_runIn answer env object built]
      exact ⟨⟨_, rfl⟩, counted⟩

-----------------------------------------------------------------------------------------
-- Runs
-----------------------------------------------------------------------------------------

namespace CountedSession

variable {i : Option Handle} {session : CountedSession χ ω}

/-- A call keeps the counter in step with the ledger. -/
theorem Counted.next (counted : session.Counted i) (entry : EntryPoint)
    : (session.next ext answer i entry).Counted i := by
  obtain ⟨object, cpu, live, built, counts⟩ := counted
  obtain ⟨⟨last, still⟩, counts⟩ :=
    entry.body_counted built counts
  unfold CountedSession.next
  rw [entry.call_eq ext answer live, live]
  exact ⟨_, last, World.object?_update live _, still, counts⟩

/-- Calls keep the counter in step with the ledger, by induction on their list. -/
theorem Counted.calls (counted : session.Counted i) (entries : List EntryPoint)
    : (entries.foldl (CountedSession.next ext answer i) session).Counted i := by
  induction entries generalizing session with
  | nil => exact counted
  | cons entry rest ih => exact ih (counted.next entry)

/-- `pydrofoil_cpu_cycles` is the number of completed steps exactly when no step has raised, as
long as the count fits.
-/
theorem Counted.cycles_iff (counted : session.Counted i)
    : (cyclesCall answer i session.world session.env).toNat = session.ledger.completed
      ↔ (session.ledger.raised = 0 ∧ session.ledger.completed < 2 ^ 64)
        ∨ (session.ledger.completed = 0 ∧ 2 ^ 64 ≤ session.ledger.raised) := by
  obtain ⟨object, cpu, live, _, counts⟩ := counted
  rw [cyclesCall_eq answer live, toUInt64, counts]
  split
  · rename_i fits
    rw [Option.getD_some, BitVec.toNat_ofNat, Nat.mod_eq_of_lt fits]
    omega
  · show 0 = _ ↔ _
    omega

/-- The status of `simulate(n)` is `n` exactly when all steps complete, as long as `n` fits. -/
theorem Counted.simulate_iff (counted : session.Counted i) (n : BitVec 64)
    : ((((EntryPoint.simulate n).call ext answer i session.world session.env).1.toInt = n.toNat
          ↔ session.completes ext answer i n.toNat = n.toNat)
        ↔ n.toNat < 2 ^ 31 ∨ session.completes ext answer i n.toNat < n.toNat) := by
  obtain ⟨object, cpu, live, built, _⟩ := counted
  obtain ⟨bounded, result, _, _⟩ :=
    times_step built n.toNat
  rw [EntryPoint.call_eq ext answer live]
  unfold EntryPoint.body CountedSession.completes
  rw [Program.runIn_returning, live]
  dsimp only at bounded result ⊢
  rw [result]
  by_cases all : completedSteps ext answer n.toNat object session.env = n.toNat
  · rw [if_pos all, Option.map_some, Option.bind_some, toInt_status, all]
    simp
  · have short : completedSteps ext answer n.toNat object session.env < n.toNat := by omega
    have nonzero : ¬ (0 : Int) = n.toNat := by omega
    rw [if_neg all]
    simp [all, short, nonzero]

end CountedSession

/-- After any sequence of calls on a CPU that was just built, whatever the CPU and the registered
functions do: the counter is exact when no step has raised since the last rebuild, and the status
of `simulate(n)` is exact when `n` fits an `int` or some step raises.
-/
theorem stepCount_iff (i : Option Handle) (world : World χ) (object : C χ)
    (live : world.object? i = some object) (built : object.cpu.isSome)
    (fresh : object.steps = 0) (env : ω) (entries : List EntryPoint)
    : let session := entries.foldl (CountedSession.next ext answer i) { world, env }
      ((cyclesCall answer i session.world session.env).toNat = session.ledger.completed
        ↔ (session.ledger.raised = 0 ∧ session.ledger.completed < 2 ^ 64)
          ∨ (session.ledger.completed = 0 ∧ 2 ^ 64 ≤ session.ledger.raised))
      ∧ ∀ n : BitVec 64,
          (((EntryPoint.simulate n).call ext answer i session.world session.env).1.toInt = n.toNat
            ↔ session.completes ext answer i n.toNat = n.toNat)
          ↔ n.toNat < 2 ^ 31 ∨ session.completes ext answer i n.toNat < n.toNat := by
  obtain ⟨cpu, first⟩ := Option.isSome_iff_exists.mp built
  have start : CountedSession.Counted i { world, env } := ⟨object, cpu, live, first, fresh⟩
  exact ⟨(start.calls entries).cycles_iff, (start.calls entries).simulate_iff⟩

/-- CPUs without memory accesses whose steps all raise or all complete. -/
def steppingCpu (raises : Bool) : Pydrofoil Unit where
  create _ _ _ := .ret (some ())
  callbacks := true
  step _ := .ret (!raises, ())
  readRegister _ _ := some 0
  writeRegister _ _ _ := (true, ())
  setVerbosity _ _ := (true, ())

/-- Functions that succeed without an effect. -/
def silentFunctions : Environment Unit
  | _, .read .. => ((0, 0), ())
  | _, .write .. => (0, ())

/-- One allocated CPU. -/
def steppingWorld : World Unit :=
  {
    objects := [(1, {
      rv64 := true, arg := none, handle := some 1
      cpu := some { state := (), payload := none, generation := 0 }
    })]
    nextHandle := 2
  }

theorem stepCount_steppingCpu
    : (steppingWorld.object? (some 1)).isSome
      ∧ let session := [EntryPoint.simulate 3, .reset, .simulate 2].foldl
          (CountedSession.next (steppingCpu false) silentFunctions (some 1))
          { world := steppingWorld, env := () }
        (cyclesCall silentFunctions (some 1) session.world session.env).toNat
          = session.ledger.completed
        ∧ session.ledger.completed = 2 := by
  refine ⟨rfl, ?_, by decide⟩
  exact (stepCount_iff (some 1) steppingWorld
    _ rfl rfl rfl () [.simulate 3, .reset, .simulate 2]).1.mpr (by decide)

/-- All steps of the CPU that never raises complete, by induction on their number. -/
theorem completedSteps_steppingCpu (count : Nat) (object : C Unit) {cpu : Cpu Unit}
    (built : object.cpu = some cpu)
    : completedSteps (steppingCpu false) silentFunctions count object () = count := by
  induction count generalizing object cpu with
  | zero => rfl
  | succ count ih =>
      obtain ⟨rv64, arg, callbacks, read, write, mem, handle, current, steps⟩ := object
      obtain rfl : current = some cpu := built
      exact congrArg (· + 1)
        (ih ⟨rv64, arg, callbacks, read, write, mem, handle, some cpu, steps + 1⟩ rfl)

/-- A step that raises is counted although it has not completed, and 2^31 completed steps are
reported as zero.
-/
theorem stepCount_wrong
    : let one := [EntryPoint.simulate 1].foldl
        (CountedSession.next (steppingCpu true) silentFunctions (some 1))
        { world := steppingWorld, env := () }
      let session : CountedSession Unit Unit := { world := steppingWorld, env := () }
      let completes := session.completes (steppingCpu false) silentFunctions (some 1) (2 ^ 31)
      let status := ((EntryPoint.simulate 0x80000000).call (steppingCpu false) silentFunctions
        (some 1) session.world session.env).1
      (cyclesCall silentFunctions (some 1) one.world one.env).toNat = 1
      ∧ one.ledger.completed = 0
      ∧ completes = 2 ^ 31
      ∧ ¬ (status.toInt = 2 ^ 31 ↔ completes = 2 ^ 31) := by
  have all (object : C Unit) (live : steppingWorld.object? (some 1) = some object)
      : CountedSession.completes (steppingCpu false) silentFunctions (some 1)
          { world := steppingWorld, env := () } (2 ^ 31)
        = 2 ^ 31 := by
    unfold CountedSession.completes
    rw [live]
    obtain rfl := Option.some.inj live
    exact completedSteps_steppingCpu _ _ rfl
  have counted : CountedSession.Counted (some 1)
      ({ world := steppingWorld, env := () } : CountedSession Unit Unit) :=
    ⟨_, _, rfl, rfl, rfl⟩
  refine ⟨by decide, by decide, all _ rfl, fun same => ?_⟩
  have bound := (counted.simulate_iff
    0x80000000).mp same
  have size : (0x80000000 : BitVec 64).toNat = 2 ^ 31 := rfl
  rw [size, all _ rfl] at bound
  omega

end VcmlPydrofoil
