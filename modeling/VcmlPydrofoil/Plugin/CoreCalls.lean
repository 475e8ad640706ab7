import VcmlPydrofoil.Model.CallbackPath
import VcmlPydrofoil.Plugin.Objects

/-! What the tasks of the core do when the glue code is its plugin: one lemma for each handler, on
one thread.
-/

namespace VcmlPydrofoil

open Interaction (Tree Program)

variable {χ β α : Type}

/-- The core on the glue code. -/
def gluePlatform (ext : Pydrofoil χ) (bus : Bus β) : Platform (World χ) β :=
  { api := gluecode ext, bus }

/-- A completed write of the pc is read back. -/
def Pydrofoil.ReadsBack (ext : Pydrofoil χ) : Prop :=
  ∀ value state,
    (ext.writeRegister "pc" value state).1 = true
    → ext.readRegister "pc" (ext.writeRegister "pc" value state).2 = some value

namespace Sequential

variable {ext : Pydrofoil χ} {bus : Bus β} {state : Sequential (World χ) β} {object : C χ}
variable {started : Bool}

/-- The object behind the handle of the core. -/
def object? (state : Sequential (World χ) β) : Option (C χ) := state.py.object? state.cpu

/-- The pc of the CPU; `none` when it cannot be read. -/
def pc (ext : Pydrofoil χ) (state : Sequential (World χ) β) : Option (BitVec 64) :=
  (state.object?.bind C.cpu).bind (fun cpu => ext.readRegister "pc" cpu.state)

/-- A handler goes on after an entry point has run its body on the object. -/
theorem follow_entry {γ : Type} (live : state.object? = some object) (function : ApiFunction)
    (default : γ) (convert : α → Option γ) (body : Py (C χ) α) (rest : γ → World χ → Script (World χ))
    : state.follow (gluePlatform ext bus) started
        (Script.call function
          (toApiCall (defExtern default convert (Gluecode.fromHandle state.cpu body) state.py)) rest)
      = (let out := body.runIn (invoke (gluePlatform ext bus) started) object state
         let world := state.py.update state.cpu out.1.2
         { out.2 with py := world }.follow (gluePlatform ext bus) started
          (rest ((out.1.1.bind convert).getD default) world)) := by
  rw [follow_call, run_toApiCall, run_defExtern, run_fromHandle _ live]

/-- The callbacks of a call change only the bus and the records of the accesses. -/
theorem run_invoke_keeps (ext : Pydrofoil χ) (bus : Bus β) (started : Bool) (body : Py (C χ) α)
    (object : C χ) (state : Sequential (World χ) β)
    : (body.runIn (invoke (gluePlatform ext bus) started) object state).2.cpu = state.cpu
      ∧ (body.runIn (invoke (gluePlatform ext bus) started) object state).2.nCycles = state.nCycles
      ∧ (body.runIn (invoke (gluePlatform ext bus) started) object state).2.values = state.values := by
  refine Tree.run_keeps
    (fun s => s.cpu = state.cpu ∧ s.nCycles = state.nCycles ∧ s.values = state.values)
    ?_ (body object) state ⟨rfl, rfl, rfl⟩
  intro s call kept
  unfold invoke Sequential.callback
  dsimp only
  split
  · exact kept
  · split
    · exact kept
    · exact kept

/-- `SetPc`: whether or not the Python body raises, its status is 0 and the promise gets 1. -/
theorem handle_setPc (live : state.object? = some object) {cpu : Cpu χ}
    (built : object.cpu = some cpu) (value : BitVec 64) (id : Nat)
    : state.handle (gluePlatform ext bus) ((Operation.writeRegDbg 0 value 8).task id)
      = {
          state with
          py := state.py.update state.cpu
            {
              object with
              cpu := some { cpu with state := (ext.writeRegister "pc" value cpu.state).2 }
            }
          values := state.values ++ [1]
        } := by
  have status (completed : Bool)
      : (((if completed then some () else none).map (fun _ => (0 : Int))).bind toInt).getD 0
        = (0 : BitVec 32) := by
    cases completed <;> rfl
  have handler
      : state.handle (gluePlatform ext bus) ((Operation.writeRegDbg 0 value 8).task id)
        = state.follow (gluePlatform ext bus) false
            (Script.call .cpuSetPc
              (toApiCall (defExtern 0 toInt
                (Gluecode.fromHandle state.cpu ((EntryPoint.setPc value).body ext)) state.py))
              fun res _ => Script.setValue (if res = 0 then 1 else 0) Script.done) := rfl
  rw [handler, follow_entry live]
  unfold EntryPoint.body
  rw [Program.runIn_returning, C.onCpu_runIn _ _ object built]
  dsimp only
  rw [status]
  rfl

/-- `ReadPc`: the promise gets the pc, or 0 when it cannot be read. -/
theorem handle_readPc (live : state.object? = some object) (id : Nat)
    : state.handle (gluePlatform ext bus) ((Operation.readRegDbg 0 8).task id)
      = {
          state with
          py := state.py.update state.cpu object
          values := state.values ++ [(state.pc ext).getD 0]
        } := by
  have handler
      : state.handle (gluePlatform ext bus) ((Operation.readRegDbg 0 8).task id)
        = state.follow (gluePlatform ext bus) false
            (Script.call .cpuPc
              (toApiCall (defExtern 0 some
                (Gluecode.fromHandle state.cpu (C.readRegister ext "pc")) state.py))
              fun pcValue _ => Script.setValue pcValue Script.done) := rfl
  rw [handler, follow_entry live, C.readRegister_runIn]
  unfold Sequential.pc
  rw [live, Option.bind_some]
  cases object.cpu.bind (fun cpu => ext.readRegister "pc" cpu.state) with
  | none => rfl
  | some value => rfl

/-- `GetCycles`: the count of the object is narrowed to the `int` of the core. -/
theorem handle_getCycles (live : state.object? = some object) (id : Nat)
    : state.handle (gluePlatform ext bus) (Operation.cycleCount.task id)
      = (let cycles := ((toUInt64 object.steps).getD 0).setWidth 32
         {
           state with
           py := state.py.update state.cpu object
           nCycles := cycles
           values := state.values ++ [cycles.signExtend 64]
         }) := by
  have handler
      : state.handle (gluePlatform ext bus) (Operation.cycleCount.task id)
        = state.follow (gluePlatform ext bus) false
            (Script.call .cpuCycles
              (toApiCall (defExtern 0 toUInt64
                (Gluecode.fromHandle state.cpu (Program.get >>= fun cpu => pure cpu.steps))
                state.py))
              fun cycles _ =>
                Script.storeCycles (cycles.setWidth 32)
                  (Script.setValue ((cycles.setWidth 32).signExtend 64) Script.done)) := rfl
  rw [handler, follow_entry live]
  rfl

/-- `SetCb`: the installation runs without a simulation, and the promise gets 0 in any case. -/
theorem handle_setCb (live : state.object? = some object) (id : Nat)
    : state.handle (gluePlatform ext bus) (Operation.endOfElaboration.task id)
      = (let out := ((EntryPoint.setRamReadWriteCallback readMemPointer writeMemPointer
            corePointer).body ext).runIn (invoke (gluePlatform ext bus) false) object state
         {
           out.2 with
           py := state.py.update state.cpu out.1.2
           values := out.2.values ++ [0]
         }) := by
  have handler
      : state.handle (gluePlatform ext bus) (Operation.endOfElaboration.task id)
        = state.follow (gluePlatform ext bus) false
            (Script.call .cpuSetRamReadWriteCallback
              (toApiCall (defExtern 0 toInt
                (Gluecode.fromHandle state.cpu
                  ((EntryPoint.setRamReadWriteCallback readMemPointer writeMemPointer
                    corePointer).body ext)) state.py))
              fun res _ => Script.setValue (res.signExtend 64) Script.done) := rfl
  rw [handler, follow_entry live]
  dsimp only
  rw [EntryPoint.status_zero _ _ _ (by simp)]
  rfl

/-- `Simulate`: the steps run with the callbacks of a running simulation, and the core's copy of
the count is that of the object after them.
-/
theorem handle_simulate (live : state.object? = some object) (cycles : BitVec 64) (id : Nat)
    : state.handle (gluePlatform ext bus) ((Operation.simulate cycles).task id)
      = (let out := ((EntryPoint.simulate cycles).body ext).runIn
            (invoke (gluePlatform ext bus) true) object state
         {
           out.2 with
           py := (state.py.update state.cpu out.1.2).update state.cpu out.1.2
           nCycles := ((toUInt64 out.1.2.steps).getD 0).setWidth 32
           values := out.2.values ++ [0]
         }) := by
  have kept := run_invoke_keeps ext bus true
    ((EntryPoint.simulate cycles).body ext) object state
  have handler
      : state.handle (gluePlatform ext bus) ((Operation.simulate cycles).task id)
        = state.follow (gluePlatform ext bus) true
            (Script.call .cpuSimulate
              (toApiCall (defExtern 0 toInt
                (Gluecode.fromHandle state.cpu ((EntryPoint.simulate cycles).body ext)) state.py))
              fun _ py =>
                Script.call .cpuCycles
                  (toApiCall (defExtern 0 toUInt64
                    (Gluecode.fromHandle state.cpu (Program.get >>= fun cpu => pure cpu.steps)) py))
                  fun cycles _ =>
                    Script.storeCycles (cycles.setWidth 32)
                      (Script.setValue 0 (Script.notifyMemtask Script.done))) := rfl
  rw [handler, follow_entry live]
  dsimp only
  generalize ((EntryPoint.simulate cycles).body ext).runIn (invoke (gluePlatform ext bus) true) object
    state = out at kept ⊢
  obtain ⟨⟨result, stepped⟩, after⟩ := out
  have sameCpu : after.cpu = state.cpu := kept.1
  have still
      : ({ after with py := state.py.update after.cpu stepped } : Sequential (World χ) β).object?
        = some stepped := by
    unfold object? at live ⊢
    rw [sameCpu]
    exact World.object?_update live stepped
  rw [← sameCpu, follow_entry still]
  rfl

/-- A register write of another register or size is refused and touches nothing. -/
theorem perform_writeRegDbg_refused {reg len : BitVec 64} (other : ¬ (reg = 0 ∧ len = 8))
    (buf : BitVec 64)
    : state.perform (gluePlatform ext bus) (.writeRegDbg reg buf len) = (.written false, state) := by
  have refused : state.posts (.writeRegDbg reg buf len) = false := by
    show (reg == 0 && len == 8) = false
    rw [Bool.and_eq_false_iff, beq_eq_false_iff_ne, beq_eq_false_iff_ne]
    by_cases zero : reg = 0
    · exact Or.inr fun eight => other ⟨zero, eight⟩
    · exact Or.inl zero
  rw [perform, refused]
  rfl

/-- A write of the pc is accepted, whether or not the Python body raises. -/
theorem perform_writeRegDbg (live : state.object? = some object) {cpu : Cpu χ}
    (built : object.cpu = some cpu) (value : BitVec 64)
    : state.perform (gluePlatform ext bus) (.writeRegDbg 0 value 8)
      = (.written true,
          {
            state with
            py := state.py.update state.cpu
              {
                object with
                cpu := some { cpu with state := (ext.writeRegister "pc" value cpu.state).2 }
              }
            values := state.values ++ [1]
          }) := by
  have handled : state.handleAll (gluePlatform ext bus) (Operation.writeRegDbg 0 value 8).tasks = _ :=
    handle_setPc live built value 0
  have posted : state.posts (.writeRegDbg 0 value 8) = true := rfl
  rw [perform, posted, handled]
  simp [Operation.returned, Sequential.value]

/-- A read of the pc returns it, or 0 when it cannot be read. -/
theorem perform_readRegDbg (live : state.object? = some object)
    : state.perform (gluePlatform ext bus) (.readRegDbg 0 8)
      = (.register (some ((state.pc ext).getD 0)),
          {
            state with
            py := state.py.update state.cpu object
            values := state.values ++ [(state.pc ext).getD 0]
          }) := by
  have handled : state.handleAll (gluePlatform ext bus) (Operation.readRegDbg 0 8).tasks = _ :=
    handle_readPc live 0
  have posted : state.posts (.readRegDbg 0 8) = true := rfl
  rw [perform, posted, handled]
  simp [Operation.returned, Sequential.value]

-----------------------------------------------------------------------------------------
-- The CPU across operations
-----------------------------------------------------------------------------------------

/-- The core has a CPU. -/
def HasCpu (state : Sequential (World χ) β) : Prop :=
  ∃ object cpu, state.object? = some object ∧ object.cpu = some cpu

/-- The pc that `pydrofoil_cpu_pc` reports: 0 when it cannot be read. -/
def reportedPc (ext : Pydrofoil χ) (state : Sequential (World χ) β) : BitVec 64 :=
  (state.pc ext).getD 0

/-- The reported pc is that of the object. -/
theorem reportedPc_eq (live : state.object? = some object)
    : state.reportedPc ext
      = (object.cpu.bind (fun cpu => ext.readRegister "pc" cpu.state)).getD 0 := by
  unfold reportedPc pc
  rw [live]
  rfl

/-- A state whose handle has this object. -/
theorem object?_updated (live : state.object? = some object) (next : Sequential (World χ) β)
    (sameCpu : next.cpu = state.cpu) {changed : C χ}
    (updated : next.py = state.py.update state.cpu changed)
    : next.object? = some changed := by
  unfold object? at live ⊢
  rw [sameCpu, updated]
  exact World.object?_update live changed

/-- A register read keeps the CPU and returns its pc. -/
theorem HasCpu.readRegDbg (has : state.HasCpu)
    : let out := state.perform (gluePlatform ext bus) (.readRegDbg 0 8)
      out.1 = .register (some (state.reportedPc ext))
      ∧ out.2.HasCpu
      ∧ out.2.reportedPc ext = state.reportedPc ext := by
  obtain ⟨object, cpu, live, built⟩ := has
  dsimp only
  rw [perform_readRegDbg live]
  have still := object?_updated live
    { state with
      py := state.py.update state.cpu object
      values := state.values ++ [(state.pc ext).getD 0] } rfl rfl
  exact ⟨rfl, ⟨object, cpu, still, built⟩, (reportedPc_eq still).trans (reportedPc_eq live).symm⟩

/-- A count of the cycles keeps the CPU and its pc. -/
theorem HasCpu.cycleCount (ext : Pydrofoil χ) (bus : Bus β) (has : state.HasCpu)
    : (state.perform (gluePlatform ext bus) .cycleCount).2.HasCpu
      ∧ (state.perform (gluePlatform ext bus) .cycleCount).2.reportedPc ext
        = state.reportedPc ext := by
  obtain ⟨object, cpu, live, built⟩ := has
  have handled
      : (state.perform (gluePlatform ext bus) .cycleCount).2
        = state.handle (gluePlatform ext bus) (Operation.cycleCount.task 0) := rfl
  rw [handled, handle_getCycles live]
  dsimp only
  have still := object?_updated live
    { state with
      py := state.py.update state.cpu object
      nCycles := ((toUInt64 object.steps).getD 0).setWidth 32
      values := state.values
        ++ [(((toUInt64 object.steps).getD 0).setWidth 32 : BitVec 32).signExtend 64] } rfl rfl
  exact ⟨⟨object, cpu, still, built⟩, (reportedPc_eq still).trans (reportedPc_eq live).symm⟩

/-- An accepted register write keeps the CPU, and its pc is then what the extension left. -/
theorem HasCpu.writeRegDbg (has : state.HasCpu) (value : BitVec 64)
    : let out := state.perform (gluePlatform ext bus) (.writeRegDbg 0 value 8)
      out.1 = .written true
      ∧ out.2.HasCpu
      ∧ ∃ object cpu,
          state.object? = some object
          ∧ object.cpu = some cpu
          ∧ out.2.reportedPc ext
            = (ext.readRegister "pc" (ext.writeRegister "pc" value cpu.state).2).getD 0 := by
  obtain ⟨object, cpu, live, built⟩ := has
  dsimp only
  rw [perform_writeRegDbg live built]
  have still := object?_updated live
    { state with
      py := state.py.update state.cpu
        { object with cpu := some { cpu with state := (ext.writeRegister "pc" value cpu.state).2 } }
      values := state.values ++ [1] } rfl rfl
  exact ⟨rfl, ⟨_, _, still, rfl⟩, object, cpu, live, built, reportedPc_eq still⟩

/-- A simulation keeps the CPU object. -/
theorem HasCpu.simulate (ext : Pydrofoil χ) (bus : Bus β) (has : state.HasCpu)
    (cycles : BitVec 64)
    : (state.perform (gluePlatform ext bus) (.simulate cycles)).2.HasCpu := by
  obtain ⟨object, cpu, live, built⟩ := has
  have handled
      : (state.perform (gluePlatform ext bus) (.simulate cycles)).2
        = state.handle (gluePlatform ext bus) ((Operation.simulate cycles).task 0) := rfl
  rw [handled, handle_simulate live]
  obtain ⟨sameCpu, _, _⟩ := run_invoke_keeps ext bus true
    ((EntryPoint.simulate cycles).body ext) object state
  obtain ⟨last, still⟩ := EntryPoint.body_built
    (invoke (gluePlatform ext bus) true) state object built (.simulate cycles)
  dsimp only
  refine ⟨_, last, ?_, still⟩
  unfold object? at live ⊢
  dsimp only
  rw [sameCpu]
  exact World.object?_update (World.object?_update live _) _

end Sequential

end VcmlPydrofoil
