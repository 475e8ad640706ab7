import VcmlPydrofoil.Model.Gluecode

/-! The entry points that C calls on an allocated CPU, one call after another, and what each call
does in an environment that answers the accesses of the CPU.
-/

namespace VcmlPydrofoil

open Interaction (Tree Program)

variable {χ ω : Type} (ext : Pydrofoil χ)

/-- The entry points with an `int` status. -/
inductive EntryPoint where
  | simulate (steps : BitVec 64)
  | reset
  | setRamReadWriteCallback (read write payload : Pointer)
  | setVerbosity (verbose : BitVec 32)
  | setPc (value : BitVec 64)
  deriving DecidableEq

namespace EntryPoint

/-- The Python function behind an entry point. -/
def function (i : Option Handle) : EntryPoint → Py (World χ) Int
  | .simulate steps => Gluecode.cpuSimulate ext i steps
  | .reset => Gluecode.cpuReset ext i
  | .setRamReadWriteCallback read write payload =>
      Gluecode.cpuSetRamReadWriteCallback ext i read write payload
  | .setVerbosity verbose => Gluecode.cpuSetVerbosity ext i verbose
  | .setPc value => Gluecode.cpuSetPc ext i value

/-- The body of that function, once it has the object. -/
def body : EntryPoint → Py (C χ) Int
  | .simulate steps => do
      Program.times (C.step ext) steps.toNat
      pure steps.toNat
  | .reset => do
      C.reset ext
      pure 0
  | .setRamReadWriteCallback read write payload => do
      C.setCallbacks ext read write payload
      C.reset ext
      pure 0
  | .setVerbosity verbose => do
      C.onCpu (ext.setVerbosity (verbose != 0))
      pure 0
  | .setPc value => do
      C.onCpu (ext.writeRegister "pc" value)
      pure 0

/-- Every one of them works on the object behind the handle. -/
theorem function_eq (i : Option Handle) (entry : EntryPoint)
    : entry.function ext i = Gluecode.fromHandle i (entry.body ext) := by
  cases entry <;> rfl

end EntryPoint

/-- How the registered functions answer, over a state of their own. -/
abbrev Environment (ω : Type) := ω → (call : CCallback) → call.Reply × ω

variable (answer : Environment ω)

/-- Call an entry point: its status, the Python world and the environment after it. -/
def EntryPoint.call (entry : EntryPoint) (i : Option Handle) (world : World χ) (env : ω)
    : BitVec 32 × World χ × ω :=
  let out := (defExtern 0 toInt (entry.function ext i) world).run answer env
  (out.1.1, out.1.2, out.2)

/-- `pydrofoil_cpu_cycles`. -/
def cyclesCall (i : Option Handle) (world : World χ) (env : ω) : BitVec 64 :=
  ((defExtern 0 toUInt64 (Gluecode.cpuCycles i) world).run answer env).1.1

/-- An object that is behind a live handle is replaced there. -/
theorem World.object?_update {world : World χ} {i : Option Handle} {object : C χ}
    (live : world.object? i = some object) (changed : C χ)
    : (world.update i changed).object? i = some changed := by
  cases i with
  | none => simp [World.object?] at live
  | some handle =>
      obtain ⟨objects, nextHandle⟩ := world
      simp only [World.object?, World.update, Option.bind_some] at live ⊢
      induction objects with
      | nil => simp at live
      | cons entry rest ih =>
          obtain ⟨first, value⟩ := entry
          by_cases same : first = handle
          · subst same
            simp
          · have other : (handle == first) = false := by simpa using Ne.symm same
            rw [List.lookup_cons, other] at live
            simp only [List.map_cons, Option.some.injEq, same, ↓reduceIte, List.lookup_cons, other]
            simpa using ih live

/-- A function that raises or returns is converted where it ends. -/
theorem run_defExtern {σ α γ : Type} (default : γ) (convert : α → Option γ) (body : Py σ α)
    (state : σ) (env : ω)
    : (defExtern default convert body state).run answer env
      = ((((body.runIn answer state env).1.1.bind convert).getD default,
          (body.runIn answer state env).1.2), (body.runIn answer state env).2) := by
  unfold defExtern Interaction.Tree.map
  rw [Tree.run_bind]
  rfl

/-- A body on the object behind a live handle. -/
theorem run_fromHandle {α : Type} {world : World χ} {i : Option Handle} {object : C χ}
    (live : world.object? i = some object) (body : Py (C χ) α) (env : ω)
    : (Gluecode.fromHandle i body).runIn answer world env
      = (((body.runIn answer object env).1.1, world.update i (body.runIn answer object env).1.2),
          (body.runIn answer object env).2) := by
  unfold Program.runIn Gluecode.fromHandle
  rw [live]
  show ((body object).bind _).run answer env = _
  rw [Tree.run_bind]
  rfl

/-- An entry point called with a live handle runs its body on the object and converts the result.
-/
theorem EntryPoint.call_eq {world : World χ} {i : Option Handle} {object : C χ}
    (live : world.object? i = some object) (entry : EntryPoint) (env : ω)
    : entry.call ext answer i world env
      = ((((entry.body ext).runIn answer object env).1.1.bind toInt).getD 0,
          world.update i ((entry.body ext).runIn answer object env).1.2,
          ((entry.body ext).runIn answer object env).2) := by
  unfold EntryPoint.call
  rw [run_defExtern, EntryPoint.function_eq, run_fromHandle answer live]

/-- The count of a live object, as far as it fits. -/
theorem cyclesCall_eq {world : World χ} {i : Option Handle} {object : C χ}
    (live : world.object? i = some object) (env : ω)
    : cyclesCall answer i world env = (toUInt64 object.steps).getD 0 := by
  unfold cyclesCall Gluecode.cpuCycles
  rw [run_defExtern, run_fromHandle answer live]
  rfl

end VcmlPydrofoil
