import VcmlPydrofoil.Correctness.Installation
import VcmlPydrofoil.Model.Processor
import VcmlPydrofoil.Model.Runs
import VcmlPydrofoil.Plugin.CoreCalls

/-! The pc from its configured value to the simulations. The callbacks are installed after the
flush and replace the CPU, and a reset pulse does not reach it, so the configured value counts only
where the CPU has it anyway.
-/

namespace VcmlPydrofoil

open Interaction (Program)

variable {χ β : Type} {ext : Pydrofoil χ} {bus : Bus β}

/-- Every newly constructed CPU starts at this pc. -/
def Pydrofoil.StartsAt (ext : Pydrofoil χ) (pc : BitVec 64) : Prop :=
  ∀ rv64 arg callbacks,
    (ext.create rv64 arg callbacks).Always (fun _ => True)
      (fun created => ∀ state, created = some state → ext.readRegister "pc" state = some pc)

/-- The registration that the core makes. -/
def coreRegistration : Registration :=
  { read := readMemPointer, write := writeMemPointer, payload := corePointer }

/-- The installation at the end of the elaboration builds a new CPU. -/
def Rebuilds (ext : Pydrofoil χ) (bus : Bus β) (state : Sequential (World χ) β) : Prop :=
  ∀ object,
    state.object? = some object
    → object.Builds ext (Sequential.invoke (gluePlatform ext bus) false) state coreRegistration

/-- A new CPU has the pc where it starts. -/
theorem construct_startsAt {ω : Type} {pc : BitVec 64} (starts : ext.StartsAt pc)
    {answer : Environment ω} {object : C χ} {env : ω} {state : χ}
    (made : (object.construct answer ext env).1 = some state)
    : ext.readRegister "pc" state = some pc := by
  have ended := (C.intercept_ended object object.callbacks
    (starts object.rv64 object.arg object.callbacks.isSome)).runIn answer env
  exact ended (some state) (by
    unfold C.construct at made
    exact Option.join_eq_some_iff.mp made) state rfl

/-- After the elaboration, the CPU is a new one at the pc where it starts, unless building it has
failed: then it is the old one.
-/
theorem HasCpu.endOfElaboration {pc : BitVec 64} (starts : ext.StartsAt pc)
    {state : Sequential (World χ) β} (has : state.HasCpu)
    : let after := (state.perform (gluePlatform ext bus) .endOfElaboration).2
      after.HasCpu
      ∧ (Rebuilds ext bus state → after.reportedPc ext = pc)
      ∧ (¬ Rebuilds ext bus state → after.reportedPc ext = state.reportedPc ext) := by
  obtain ⟨object, cpu, live, built⟩ := has
  have handled
      : (state.perform (gluePlatform ext bus) .endOfElaboration).2
        = state.handle (gluePlatform ext bus) (Operation.endOfElaboration.task 0) := rfl
  obtain ⟨sameCpu, _, _⟩ := Sequential.run_invoke_keeps ext bus false
    (coreRegistration.entry.body ext) object state
  obtain ⟨last, still⟩ := EntryPoint.body_built
    (Sequential.invoke (gluePlatform ext bus) false) state object built coreRegistration.entry
  have there
      : (state.perform (gluePlatform ext bus) .endOfElaboration).2.object?
        = some (object.afterInstallation ext (Sequential.invoke (gluePlatform ext bus) false) state
            coreRegistration) := by
    rw [handled, Sequential.handle_setCb live]
    refine Sequential.object?_updated live _ ?_ rfl
    exact sameCpu
  refine ⟨⟨_, last, there, still⟩, fun rebuilds => ?_, fun kept => ?_⟩
  · obtain ⟨callbacks, constructed⟩ := rebuilds object live
    obtain ⟨made, new⟩ := Option.isSome_iff_exists.mp constructed
    rw [Sequential.reportedPc_eq there, C.afterInstallation_eq, if_pos callbacks, C.reset_runIn, new]
    show (ext.readRegister "pc" made).getD 0 = pc
    rw [construct_startsAt starts new]
    rfl
  · have unbuilt
        : ¬ object.Builds ext (Sequential.invoke (gluePlatform ext bus) false) state
            coreRegistration := by
      intro builds
      refine kept fun other here => ?_
      obtain rfl := Option.some.inj (live.symm.trans here)
      exact builds
    rw [Sequential.reportedPc_eq there, Sequential.reportedPc_eq live,
      C.afterInstallation_unbuilt unbuilt]

-----------------------------------------------------------------------------------------
-- Runs after the elaboration
-----------------------------------------------------------------------------------------

/-- What happens to the processor after the elaboration. -/
inductive ProcessorEvent where
  | writePc (value : BitVec 64)
  | readPc
  | resetPulse
  | simulate (cycles : BitVec 64)
  deriving DecidableEq

/-- The next simulation comes before the next write and the next reset pulse. -/
def startsNext : List ProcessorEvent → Bool
  | .simulate _ :: _ => true
  | .readPc :: rest => startsNext rest
  | _ => false

/-- The next event is a register read. -/
def readsNext : List ProcessorEvent → Bool
  | .readPc :: _ => true
  | _ => false

/-- The law of the pc along a run. `start` is the pc that the first simulation since the
elaboration or the last reset pulse is to start from, while it is still to come, and `accepted` is
the last accepted value, while reads are to return it.
-/
def PcLaw (ext : Pydrofoil χ) (bus : Bus β) (configured : BitVec 64)
    (processor : Processor (World χ) β) (start accepted : Option (BitVec 64))
    : List ProcessorEvent → Prop
  | [] => True
  | .writePc value :: rest =>
      let out := processor.writeCpuregDbg (gluePlatform ext bus) value
      if out.1 then PcLaw ext bus configured out.2 (start.map fun _ => value) (some value) rest
      else PcLaw ext bus configured out.2 start accepted rest
  | .readPc :: rest =>
      let out := processor.readCpuregDbg (gluePlatform ext bus)
      (∀ value, accepted = some value → out.1 = some value)
      ∧ PcLaw ext bus configured out.2 start accepted rest
  | .resetPulse :: rest => PcLaw ext bus configured processor.reset (some configured) none rest
  | .simulate cycles :: rest =>
      (∀ value, start = some value → processor.core.reportedPc ext = value)
      ∧ PcLaw ext bus configured (processor.simulateCycles (gluePlatform ext bus) cycles) none none
          rest

/-- A write leaves its value in the pc: it completes, or the pc reads the value anyway. -/
def Pydrofoil.Leaves (ext : Pydrofoil χ) (value : BitVec 64) (state : χ) : Prop :=
  (ext.writeRegister "pc" value state).1 = true
  ∨ (ext.readRegister "pc" (ext.writeRegister "pc" value state).2).getD 0 = value

/-- The writes and the reset pulses of a run that the next event depends on find a CPU that takes
the value, or one that has the configured pc already. `pending` says that the first simulation
since the elaboration or the last reset pulse is still to come.
-/
def PcHolds (ext : Pydrofoil χ) (bus : Bus β) (configured : BitVec 64)
    (processor : Processor (World χ) β) (pending : Bool)
    : List ProcessorEvent → Prop
  | [] => True
  | .writePc value :: rest =>
      ((pending && startsNext rest || readsNext rest) = true
        → ∀ cpu, processor.core.object?.bind C.cpu = some cpu → ext.Leaves value cpu.state)
      ∧ PcHolds ext bus configured (processor.writeCpuregDbg (gluePlatform ext bus) value).2 pending
          rest
  | .readPc :: rest =>
      PcHolds ext bus configured (processor.readCpuregDbg (gluePlatform ext bus)).2 pending rest
  | .resetPulse :: rest =>
      (startsNext rest = true → processor.core.reportedPc ext = configured)
      ∧ PcHolds ext bus configured processor.reset true rest
  | .simulate cycles :: rest =>
      PcHolds ext bus configured (processor.simulateCycles (gluePlatform ext bus) cycles) false rest

variable {processor : Processor (World χ) β}

/-- A write through VCML is accepted and leaves its value exactly when the CPU does. -/
theorem HasCpu.writeCpuregDbg (readsBack : ext.ReadsBack) (has : processor.core.HasCpu)
    (value : BitVec 64)
    : let out := processor.writeCpuregDbg (gluePlatform ext bus) value
      out.1 = true
      ∧ out.2.core.HasCpu
      ∧ (out.2.core.reportedPc ext = value
        ↔ ∀ cpu, processor.core.object?.bind C.cpu = some cpu → ext.Leaves value cpu.state) := by
  obtain ⟨accepted, still, object, cpu, live, built, left⟩ :=
    Sequential.HasCpu.writeRegDbg has value
  dsimp only at accepted still left ⊢
  rw [Processor.writeCpuregDbg_accepted accepted]
  refine ⟨rfl, still, ?_⟩
  dsimp only
  rw [left, live]
  simp only [Option.bind_some, built, Option.some.injEq, forall_eq']
  constructor
  · exact Or.inr
  · rintro (completed | put)
    · rw [readsBack value cpu.state completed]
      rfl
    · exact put

/-- A read through VCML returns the pc and keeps it. -/
theorem HasCpu.readCpuregDbg (has : processor.core.HasCpu)
    : let out := processor.readCpuregDbg (gluePlatform ext bus)
      out.1 = some (processor.core.reportedPc ext)
      ∧ out.2.core.HasCpu
      ∧ out.2.core.reportedPc ext = processor.core.reportedPc ext := by
  obtain ⟨returned, still, same⟩ := Sequential.HasCpu.readRegDbg has
  dsimp only at returned still same ⊢
  rw [Processor.readCpuregDbg_returned returned]
  exact ⟨rfl, still, same⟩

/-- A simulation keeps the CPU. -/
theorem HasCpu.simulateCycles (ext : Pydrofoil χ) (bus : Bus β) (has : processor.core.HasCpu)
    (cycles : BitVec 64)
    : (processor.simulateCycles (gluePlatform ext bus) cycles).core.HasCpu := by
  have counted := (Sequential.HasCpu.cycleCount ext bus has).1
  have simulated := Sequential.HasCpu.simulate ext bus counted cycles
  have again := (Sequential.HasCpu.cycleCount ext bus simulated).1
  unfold Processor.simulateCycles
  dsimp only
  exact again

/-- Along every run, the law holds exactly when the next event finds what it is to find, and each
later write and reset pulse that an event depends on does; by induction on the events.
-/
theorem pcLaw_iff_holds (readsBack : ext.ReadsBack) (configured : BitVec 64)
    (events : List ProcessorEvent) (processor : Processor (World χ) β)
    (has : processor.core.HasCpu) (start accepted : Option (BitVec 64))
    : PcLaw ext bus configured processor start accepted events
      ↔ (startsNext events = true
          → ∀ value, start = some value → processor.core.reportedPc ext = value)
        ∧ (readsNext events = true
          → ∀ value, accepted = some value → processor.core.reportedPc ext = value)
        ∧ PcHolds ext bus configured processor start.isSome events := by
  induction events generalizing processor start accepted with
  | nil => simp [PcLaw, PcHolds, startsNext, readsNext]
  | cons event rest ih =>
      cases event with
      | writePc value =>
          obtain ⟨written, still, takes⟩ := HasCpu.writeCpuregDbg readsBack has value
          rw [PcLaw, PcHolds]
          rw [if_pos written, ih _ still, ← takes, Option.isSome_map]
          cases start with
          | none => simp [startsNext, readsNext]
          | some first =>
              simp only [startsNext, readsNext, Option.map_some, Option.some.injEq, forall_eq',
                Bool.false_eq_true, false_implies, true_and, Option.isSome_some, Bool.true_and,
                Bool.or_eq_true]
              rw [or_imp, and_assoc]
      | readPc =>
          obtain ⟨returned, still, same⟩ := HasCpu.readCpuregDbg has
          rw [PcLaw, PcHolds]
          rw [returned, ih _ still, same]
          simp only [startsNext, readsNext, Option.some.injEq, true_implies]
          constructor
          · exact fun ⟨now, starts, _, holds⟩ => ⟨starts, now, holds⟩
          · exact fun ⟨starts, now, holds⟩ => ⟨now, starts, fun _ => now, holds⟩
      | resetPulse =>
          rw [PcLaw, PcHolds, ih processor.reset has]
          simp [startsNext, readsNext, Processor.reset]
      | simulate cycles =>
          have still := HasCpu.simulateCycles ext bus has cycles
          rw [PcLaw, PcHolds, ih _ still]
          simp [startsNext, readsNext]

-----------------------------------------------------------------------------------------
-- The configured pc
-----------------------------------------------------------------------------------------

/-- The processor after its constructor and the flush of its registers. -/
def flushed (vp : Platform (World χ) β) (core : Sequential (World χ) β) (coreType : String)
    (configured : BitVec 64)
    : Processor (World χ) β :=
  (Processor.construct vp core coreType configured).beforeEndOfElaboration vp

/-- The processor after its elaboration. -/
def elaborated (vp : Platform (World χ) β) (core : Sequential (World χ) β) (coreType : String)
    (configured : BitVec 64)
    : Processor (World χ) β :=
  (flushed vp core coreType configured).endOfElaboration vp

/-- The elaboration ends with the configured pc: new CPUs start there, or the new CPU could not be
built and the flush had set the pc of the old one.
-/
def StartsConfigured (ext : Pydrofoil χ) (bus : Bus β) (pc configured : BitVec 64)
    (processor : Processor (World χ) β)
    : Prop :=
  (Rebuilds ext bus processor.core ∧ pc = configured)
  ∨ (¬ Rebuilds ext bus processor.core ∧ processor.core.reportedPc ext = configured)

/-- The pc law holds of a run from the constructor on exactly when the elaboration ends with the
configured pc, each write that the next event depends on leaves its value, and each reset pulse
finds the configured pc, where the next simulation comes before the next write.
-/
theorem pcLaw_iff (readsBack : ext.ReadsBack) (pc : BitVec 64) (starts : ext.StartsAt pc)
    (core : Sequential (World χ) β) (coreType : String) (configured : BitVec 64)
    (constructed
      : (Processor.construct (gluePlatform ext bus) core coreType configured).core.HasCpu)
    (events : List ProcessorEvent)
    : PcLaw ext bus configured (elaborated (gluePlatform ext bus) core coreType configured)
        (some configured) none events
      ↔ (startsNext events = true
          → StartsConfigured ext bus pc configured
              (flushed (gluePlatform ext bus) core coreType configured))
        ∧ PcHolds ext bus configured
            (elaborated (gluePlatform ext bus) core coreType configured) true events := by
  have flushes : (flushed (gluePlatform ext bus) core coreType configured).core.HasCpu := by
    obtain ⟨_, still, _⟩ := HasCpu.writeCpuregDbg readsBack constructed
      (Processor.construct (gluePlatform ext bus) core coreType configured).pcProperty
    unfold flushed Processor.beforeEndOfElaboration Processor.flushCpuregs
    exact still
  obtain ⟨ends, rebuilt, kept⟩ := HasCpu.endOfElaboration starts flushes
  have reported
      : (elaborated (gluePlatform ext bus) core coreType configured).core.reportedPc ext = configured
        ↔ StartsConfigured ext bus pc configured
            (flushed (gluePlatform ext bus) core coreType configured) := by
    unfold StartsConfigured elaborated Processor.endOfElaboration
    dsimp only
    by_cases rebuilds
        : Rebuilds ext bus (flushed (gluePlatform ext bus) core coreType configured).core
    · rw [rebuilt rebuilds]
      simp [rebuilds]
    · rw [kept rebuilds]
      simp [rebuilds]
  have has : (elaborated (gluePlatform ext bus) core coreType configured).core.HasCpu := by
    unfold elaborated Processor.endOfElaboration
    dsimp only
    exact ends
  rw [pcLaw_iff_holds readsBack configured events _ has (some configured) none, ← reported]
  simp

/-- A CPU that is only its pc: it starts at 0x1000 and each step adds 4. -/
def countingPc : Pydrofoil (BitVec 64) where
  create _ _ _ := .ret (some 0x1000)
  callbacks := true
  step pc := .ret (true, pc + 4)
  readRegister _ pc := some pc
  writeRegister _ value _ := (true, value)
  setVerbosity _ pc := (true, pc)

/-- A core before its constructor. -/
def rawCore : Sequential (World (BitVec 64)) Unit :=
  { cpu := none, nCycles := 0, py := {}, bus := (), accesses := [], callbacks := [], values := [] }

theorem countingPc_startsAt : countingPc.StartsAt 0x1000 := by
  intro rv64 arg callbacks state same
  obtain rfl := Option.some.inj same
  rfl

theorem pcLaw_countingPc
    : (countingPc.ReadsBack
        ∧ countingPc.StartsAt 0x1000
        ∧ (Processor.construct (gluePlatform countingPc (scriptedPlatform none []).bus) rawCore "rv64"
            0x1000).core.HasCpu)
      ∧ PcLaw countingPc (scriptedPlatform none []).bus 0x1000
          (elaborated (gluePlatform countingPc (scriptedPlatform none []).bus) rawCore "rv64" 0x1000)
          (some 0x1000) none [.simulate 1, .writePc 42, .readPc] := by
  have readsBack : countingPc.ReadsBack := fun _ _ _ => rfl
  have constructed
      : (Processor.construct (gluePlatform countingPc (scriptedPlatform none []).bus) rawCore "rv64"
          0x1000).core.HasCpu := ⟨_, _, rfl, rfl⟩
  refine ⟨⟨readsBack, countingPc_startsAt, constructed⟩, ?_⟩
  refine (pcLaw_iff readsBack 0x1000 countingPc_startsAt rawCore "rv64" 0x1000 constructed
    [.simulate 1, .writePc 42, .readPc]).mpr ⟨fun _ => Or.inl ⟨?_, rfl⟩, ?_⟩
  · intro object live
    obtain rfl := Option.some.inj live
    exact ⟨rfl, rfl⟩
  · exact ⟨fun _ _ _ => Or.inl rfl, trivial⟩

/-- The configured pc 0x80000000 is lost when the callbacks are installed, and a reset pulse does
not bring back the configured pc after a simulation.
-/
theorem pcLaw_violated
    : (elaborated (gluePlatform countingPc (scriptedPlatform none []).bus) rawCore "rv64"
          0x80000000).core.reportedPc countingPc = 0x1000
      ∧ ¬ PcLaw countingPc (scriptedPlatform none []).bus 0x80000000
          (elaborated (gluePlatform countingPc (scriptedPlatform none []).bus) rawCore "rv64"
            0x80000000) (some 0x80000000) none [.simulate 1]
      ∧ ¬ PcLaw countingPc (scriptedPlatform none []).bus 0x1000
          (elaborated (gluePlatform countingPc (scriptedPlatform none []).bus) rawCore "rv64" 0x1000)
          (some 0x1000) none [.simulate 1, .resetPulse, .simulate 1] := by
  have lost
      : (elaborated (gluePlatform countingPc (scriptedPlatform none []).bus) rawCore "rv64"
          0x80000000).core.reportedPc countingPc = 0x1000 := rfl
  have moved
      : ((elaborated (gluePlatform countingPc (scriptedPlatform none []).bus) rawCore "rv64"
          0x1000).simulateCycles (gluePlatform countingPc (scriptedPlatform none []).bus)
            1).reset.core.reportedPc countingPc = 0x1004 := rfl
  refine ⟨lost, fun law => ?_, fun law => ?_⟩
  · have starts := law.1 0x80000000 rfl
    rw [lost] at starts
    exact absurd starts (by decide)
  · have starts := law.2.1 0x1000 rfl
    rw [moved] at starts
    exact absurd starts (by decide)

end VcmlPydrofoil
