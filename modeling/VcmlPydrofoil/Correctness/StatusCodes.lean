import VcmlPydrofoil.Correctness.Installation
import VcmlPydrofoil.Model.Processor
import VcmlPydrofoil.Model.Runs
import VcmlPydrofoil.Plugin.CoreCalls

/-! The status codes of the entry points and of `write_reg_dbg`. A Python body that raises has the
same status as one that completes, so success is reported in every case.
-/

namespace VcmlPydrofoil

open Interaction (Program)

variable {χ β ω : Type} (ext : Pydrofoil χ) (answer : Environment ω)

/-- The write of the pc completes, or it raises and the pc has the value anyway. -/
def Pydrofoil.Puts (ext : Pydrofoil χ) (value : BitVec 64) (state : χ) : Prop :=
  (ext.writeRegister "pc" value state).1 = true
  ∨ ext.readRegister "pc" (ext.writeRegister "pc" value state).2 = some value

/-- What an entry point is to achieve on an object with this CPU. -/
def EntryPoint.TookEffect (entry : EntryPoint) (object : C χ) (cpu : Cpu χ) (env : ω) : Prop :=
  let final := ((entry.body ext).runIn answer object env).1.2
  match entry with
  | .simulate _ => True
  | .reset =>
      final.steps = 0
      ∧ ∃ next,
          final.cpu = some next
          ∧ next.payload = object.callbacks
          ∧ next.generation = cpu.generation + 1
  | .setRamReadWriteCallback read write payload =>
      object.Installed final { read, write, payload }
  | .setVerbosity verbose => (ext.setVerbosity (verbose != 0) cpu.state).1 = true
  | .setPc value => (final.cpu.bind fun next => ext.readRegister "pc" next.state) = some value

/-- What the entry point calls completes. -/
def EntryPoint.Completes (entry : EntryPoint) (object : C χ) (cpu : Cpu χ) (env : ω) : Prop :=
  match entry with
  | .simulate _ => True
  | .reset => (object.construct answer ext env).1.isSome = true
  | .setRamReadWriteCallback read write payload =>
      object.Builds ext answer env { read, write, payload }
  | .setVerbosity verbose => (ext.setVerbosity (verbose != 0) cpu.state).1 = true
  | .setPc value => ext.Puts value cpu.state

variable {ext answer} {object : C χ} {cpu : Cpu χ} {env : ω}

/-- A reset takes effect exactly when the constructor completes. -/
theorem reset_tookEffect (built : object.cpu = some cpu)
    : EntryPoint.reset.TookEffect ext answer object cpu env
      ↔ EntryPoint.reset.Completes ext answer object cpu env := by
  unfold EntryPoint.TookEffect EntryPoint.Completes EntryPoint.body
  dsimp only
  rw [Program.runIn_returning, C.reset_runIn]
  cases (object.construct answer ext env).1 with
  | none =>
      simp only [Option.isSome_none, Bool.false_eq_true, iff_false]
      rintro ⟨_, next, same, _, fresh⟩
      have kept : next = cpu := Option.some.inj (same.symm.trans built)
      rw [kept] at fresh
      omega
  | some state =>
      simp only [Option.isSome_some, iff_true]
      refine ⟨rfl, _, rfl, rfl, ?_⟩
      show (object.cpu.map (fun old => old.generation + 1)).getD 0 = _
      rw [built]
      rfl

/-- An installation takes effect exactly when the CPU gets built. -/
theorem installation_tookEffect {read write payload : Pointer}
    : (EntryPoint.setRamReadWriteCallback read write payload).TookEffect ext answer object cpu env
      ↔ (EntryPoint.setRamReadWriteCallback read write payload).Completes ext answer object cpu env := by
  constructor
  · intro installed
    by_contra unbuilt
    exact C.not_installed unbuilt installed
  · exact C.Builds.installed

/-- A write of the pc takes effect exactly when it puts the value there. -/
theorem setPc_tookEffect (readsBack : ext.ReadsBack) (built : object.cpu = some cpu)
    {value : BitVec 64}
    : (EntryPoint.setPc value).TookEffect ext answer object cpu env
      ↔ (EntryPoint.setPc value).Completes ext answer object cpu env := by
  unfold EntryPoint.TookEffect EntryPoint.Completes EntryPoint.body Pydrofoil.Puts
  dsimp only
  rw [Program.runIn_returning, C.onCpu_runIn answer env object built]
  constructor
  · exact Or.inr
  · rintro (completed | put)
    · exact readsBack value cpu.state completed
    · exact put

/-- Each of the four entry points takes effect exactly when what it calls completes. -/
theorem EntryPoint.tookEffect_iff (readsBack : ext.ReadsBack) (built : object.cpu = some cpu)
    (entry : EntryPoint)
    : entry.TookEffect ext answer object cpu env ↔ entry.Completes ext answer object cpu env := by
  cases entry with
  | simulate steps => exact Iff.rfl
  | reset => exact reset_tookEffect built
  | setRamReadWriteCallback read write payload => exact installation_tookEffect
  | setVerbosity verbose => exact Iff.rfl
  | setPc value => exact setPc_tookEffect readsBack built

-----------------------------------------------------------------------------------------
-- Register writes
-----------------------------------------------------------------------------------------

/-- `write_reg_dbg` returns true exactly when the pc has become the written value; a call for
another register or size is no write of the pc.
-/
def WriteTells (ext : Pydrofoil χ) (bus : Bus β) (state : Sequential (World χ) β)
    (reg buf len : BitVec 64)
    : Prop :=
  let out := state.perform (gluePlatform ext bus) (.writeRegDbg reg buf len)
  out.1 = .written true ↔ (reg = 0 ∧ len = 8) ∧ out.2.pc ext = some buf

/-- After a write of the pc through VCML, its copy of the register is the pc. -/
def CopyFollows (ext : Pydrofoil χ) (bus : Bus β) (processor : Processor (World χ) β)
    (buf : BitVec 64)
    : Prop :=
  let after := (processor.writeCpuregDbg (gluePlatform ext bus) buf).2
  after.core.pc ext = some after.pcProperty

variable {bus : Bus β} {state : Sequential (World χ) β}

/-- The pc after a write is what the extension left. -/
theorem pc_writeRegDbg (live : state.object? = some object) (built : object.cpu = some cpu)
    (value : BitVec 64)
    : (state.perform (gluePlatform ext bus) (.writeRegDbg 0 value 8)).2.pc ext
      = ext.readRegister "pc" (ext.writeRegister "pc" value cpu.state).2 := by
  rw [Sequential.perform_writeRegDbg live built]
  unfold Sequential.pc Sequential.object? at *
  dsimp only
  rw [World.object?_update live]
  rfl

/-- `write_reg_dbg` tells the truth exactly when the extension puts the value there. -/
theorem writeTells_iff (readsBack : ext.ReadsBack) (live : state.object? = some object)
    (built : object.cpu = some cpu) (reg buf len : BitVec 64)
    : WriteTells ext bus state reg buf len
      ↔ (reg = 0 ∧ len = 8 → ext.Puts buf cpu.state) := by
  by_cases target : reg = 0 ∧ len = 8
  · obtain ⟨rfl, rfl⟩ := target
    unfold WriteTells
    dsimp only
    rw [pc_writeRegDbg live built, Sequential.perform_writeRegDbg live built]
    simp only [and_self, true_and, true_iff, forall_const]
    constructor
    · exact Or.inr
    · rintro (completed | put)
      · exact readsBack buf cpu.state completed
      · exact put
  · unfold WriteTells
    dsimp only
    rw [Sequential.perform_writeRegDbg_refused target]
    constructor
    · exact fun _ accepted => absurd accepted target
    · exact fun _ => iff_of_false (by simp) (fun told => target told.1)

/-- VCML's copy of the pc follows exactly when the extension puts the value there. -/
theorem copyFollows_iff (readsBack : ext.ReadsBack) {processor : Processor (World χ) β}
    (live : processor.core.object? = some object) (built : object.cpu = some cpu)
    (buf : BitVec 64)
    : CopyFollows ext bus processor buf ↔ ext.Puts buf cpu.state := by
  have accepted
      : (processor.core.perform (gluePlatform ext bus) (.writeRegDbg 0 buf 8)).1 = .written true := by
    rw [Sequential.perform_writeRegDbg live built]
  unfold CopyFollows
  rw [Processor.writeCpuregDbg_accepted accepted]
  dsimp only
  rw [pc_writeRegDbg live built]
  constructor
  · exact Or.inr
  · rintro (completed | put)
    · exact readsBack buf cpu.state completed
    · exact put

/-- On every CPU object and in every environment: a zero status of one of the four entry points
means that the operation took effect exactly when what it calls completes, and the result of
`write_reg_dbg` and VCML's copy of the pc are true exactly when the value gets into the pc.
-/
theorem statusCodes_iff (readsBack : ext.ReadsBack) (processor : Processor (World χ) β)
    (object : C χ) (live : processor.core.object? = some object) (cpu : Cpu χ)
    (built : object.cpu = some cpu)
    : (∀ entry : EntryPoint,
        (∀ steps, entry ≠ .simulate steps)
        → ∀ env,
            ((entry.call ext answer processor.core.cpu processor.core.py env).1 = 0
              → entry.TookEffect ext answer object cpu env)
            ↔ entry.Completes ext answer object cpu env)
      ∧ (∀ reg buf len,
          WriteTells ext bus processor.core reg buf len
          ↔ (reg = 0 ∧ len = 8 → ext.Puts buf cpu.state))
      ∧ ∀ buf, CopyFollows ext bus processor buf ↔ ext.Puts buf cpu.state := by
  refine ⟨fun entry other env => ?_, writeTells_iff readsBack live built,
    copyFollows_iff readsBack live built⟩
  rw [entry.call_eq ext answer live, EntryPoint.status_zero answer env object other]
  simp only [true_implies]
  exact entry.tookEffect_iff readsBack built

/-- A CPU that is only its pc; writes of it raise without an effect, or complete. -/
def pcCpu (raises : Bool) : Pydrofoil (BitVec 64) where
  create _ _ _ := .ret (some 0x1000)
  callbacks := true
  step pc := .ret (true, pc + 4)
  readRegister _ pc := some pc
  writeRegister _ value pc := if raises then (false, pc) else (true, value)
  setVerbosity _ pc := (true, pc)

/-- One such CPU at its default pc. -/
def pcState : Cpu (BitVec 64) := { state := 0x1000, payload := none, generation := 0 }

/-- The object of this CPU. -/
def pcObject : C (BitVec 64) := { rv64 := true, arg := none, handle := some 1, cpu := some pcState }

/-- A core with this CPU. -/
def pcProcessor : Processor (World (BitVec 64)) Unit where
  core := {
    cpu := some 1, nCycles := 0
    py := { objects := [(1, pcObject)], nextHandle := 2 }
    bus := (), accesses := [], callbacks := [], values := []
  }
  pcProperty := 0x1000

/-- The environment of a CPU that makes no accesses. -/
def noAccesses : Environment Unit
  | _, .read .. => ((0, 0), ())
  | _, .write .. => (0, ())

theorem statusCodes_completing
    : ((pcCpu false).ReadsBack
        ∧ pcProcessor.core.object? = some pcObject
        ∧ pcObject.cpu = some pcState)
      ∧ (EntryPoint.setPc 42).TookEffect (pcCpu false) noAccesses pcObject pcState ()
      ∧ WriteTells (pcCpu false) (scriptedPlatform none []).bus pcProcessor.core 0 42 8
      ∧ CopyFollows (pcCpu false) (scriptedPlatform none []).bus pcProcessor 42 := by
  have readsBack : (pcCpu false).ReadsBack := fun _ _ _ => rfl
  have told := @statusCodes_iff _ _ _ _ noAccesses (scriptedPlatform none []).bus readsBack
    pcProcessor pcObject rfl pcState rfl
  have puts : (pcCpu false).Puts 42 pcState.state := Or.inl rfl
  refine ⟨⟨readsBack, rfl, rfl⟩, ?_, (told.2.1 0 42 8).mpr fun _ => puts, (told.2.2 42).mpr puts⟩
  exact (told.1 (.setPc 42) (by simp) ()).mpr puts rfl

/-- A write of the pc that raises has status 0 and is accepted by `write_reg_dbg`, and VCML's copy
departs from the pc.
-/
theorem statusCodes_raising
    : (((EntryPoint.setPc 42).call (pcCpu true) noAccesses (some 1) pcProcessor.core.py ()).1 = 0
        ∧ ¬ (EntryPoint.setPc 42).TookEffect (pcCpu true) noAccesses pcObject pcState ())
      ∧ (pcProcessor.core.perform (gluePlatform (pcCpu true) (scriptedPlatform none []).bus)
          (.writeRegDbg 0 42 8)).1 = .written true
      ∧ ¬ WriteTells (pcCpu true) (scriptedPlatform none []).bus pcProcessor.core 0 42 8
      ∧ ¬ CopyFollows (pcCpu true) (scriptedPlatform none []).bus pcProcessor 42 := by
  have readsBack : (pcCpu true).ReadsBack := fun _ _ completed => nomatch completed
  have live : pcProcessor.core.object? = some pcObject := rfl
  have built : pcObject.cpu = some pcState := rfl
  have lost : ¬ (pcCpu true).Puts 42 pcState.state := by
    rintro (completed | put)
    · nomatch completed
    · have stays : some (0x1000 : BitVec 64) = some 42 := put
      exact absurd stays (by decide)
  refine ⟨⟨rfl, fun effect => ?_⟩, ?_, fun told => ?_, fun follows => ?_⟩
  · exact lost ((setPc_tookEffect readsBack built).mp effect)
  · rw [Sequential.perform_writeRegDbg live built]
  · exact lost ((writeTells_iff readsBack live built 0 42 8).mp told ⟨rfl, rfl⟩)
  · exact lost ((copyFollows_iff readsBack live built 42).mp follows)

end VcmlPydrofoil
