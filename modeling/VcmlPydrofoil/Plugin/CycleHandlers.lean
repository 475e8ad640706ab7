import VcmlPydrofoil.Plugin.CoreCalls
import VcmlPydrofoil.Plugin.StepCounter
import VcmlPydrofoil.TaskChannel.Locals

/-! What every handler does to the copy of the counter: between simulations it agrees with the
counter, and a simulation ends by storing the counter it has reached.
-/

namespace VcmlPydrofoil

open Interaction (Tree)

variable {χ : Type} {ext : Pydrofoil χ} {completed : List (World χ)}
variable {locals : Locals (World χ)} {task : PythonTask}

/-- `core.n_cycles = pydrofoil_cpu_cycles(core.cpu)`: a `uint64_t` stored in an `int`. -/
def storedCycles (steps : Nat) : BitVec 32 := ((toUInt64 steps).getD 0).setWidth 32

/-- The `int` as `cycle_count` returns it, by itself or through the promise. -/
def reportedCycles (steps : Nat) : BitVec 64 := (storedCycles steps).signExtend 64

/-- The counter in the Python world that a simulation left; zero before the first one. -/
def stepsAt (cpu : Option Handle) : Option (World χ) → Nat
  | none => 0
  | some world => world.steps cpu

/-- Between simulations the counter is that of the last completed one, and the copy agrees. -/
structure CountReady (completed : List (World χ)) (locals : Locals (World χ)) : Prop where
  fresh : locals.py.Fresh
  counted : locals.py.steps locals.cpu = stepsAt locals.cpu completed.getLast?
  stored : locals.nCycles = storedCycles (locals.py.steps locals.cpu)

/-- At the end of a simulation the counter has grown, and the copy agrees with it. -/
structure CountSettled (completed : List (World χ)) (locals : Locals (World χ)) : Prop where
  fresh : locals.py.Fresh
  grown : stepsAt locals.cpu completed.getLast? ≤ locals.py.steps locals.cpu
  stored : locals.nCycles = storedCycles (locals.py.steps locals.cpu)

/-- What holds when the promise of a task is set. -/
def CountAnswered (completed : List (World χ)) (funct : Funct) (value : BitVec 64)
    (locals : Locals (World χ))
    : Prop :=
  match funct with
  | .simulate => CountSettled completed locals
  | .getCycles =>
      CountReady completed locals ∧ value = reportedCycles (stepsAt locals.cpu completed.getLast?)
  | _ => CountReady completed locals

/-- The demands of a handler: its callbacks find the copy of the last completed simulation, its
promise is set as it should, and the handle is stored before any simulation has completed.
-/
def counting (completed : List (World χ)) (task : PythonTask)
    : Instr (World χ) → Locals (World χ) → Prop
  | .callback _, locals => CountReady completed locals
  | .setValue value, locals => CountAnswered completed task.pyFunct value locals
  | .storeCpu _, _ => completed = []
  | _, _ => True

/-- A world with the same counter. -/
theorem CountReady.world (ready : CountReady completed locals) {py : World χ} (fresh : py.Fresh)
    (same : locals.py.steps locals.cpu = py.steps locals.cpu)
    : CountReady completed { locals with py } where
  fresh := fresh
  counted := same ▸ ready.counted
  stored := same ▸ ready.stored

-----------------------------------------------------------------------------------------
-- The handlers
-----------------------------------------------------------------------------------------

/-- A handler whose one call keeps the counter, and which then sets its promise. -/
theorem CountReady.meets (ready : CountReady completed locals) {α : Type} {function : ApiFunction}
    {body : ApiCall (World χ) α}
    (kept
      : body.Always (fun _ => True)
          (fun out => out.2.Fresh ∧ locals.py.steps locals.cpu = out.2.steps locals.cpu))
    (value : α → BitVec 64)
    (answered
      : ∀ value locals, CountReady completed locals → CountAnswered completed task.pyFunct value locals)
    : (Script.call function body fun result _ =>
        Script.setValue (value result) Script.done).Meets (counting completed task) locals := by
  refine .call trivial (kept.mono (fun _ _ => ready) fun _ ends => ends) ?_
  rintro result py ⟨fresh, same⟩
  exact ⟨trivial, answered _ _ (ready.world fresh same), fun _ => trivial⟩

/-- The handler of a task meets its demands, by cases on the function. The installation of the
callbacks may set the counter back, so it has to come before the first simulation.
-/
theorem createHandlers_counting (ext : Pydrofoil χ) (ready : CountReady completed locals)
    (task : PythonTask) (early : task.pyFunct = .init ∨ task.pyFunct = .setCb → completed = [])
    (kept : task.pyFunct ≠ .freeCpu)
    : (createHandlers (gluecode ext) locals.cpu locals.py task).Meets (counting completed task)
        locals := by
  unfold createHandlers
  cases funct : task.pyFunct with
  | init =>
      obtain rfl := early (Or.inl funct)
      have zero : locals.nCycles = storedCycles 0 := by
        rw [ready.stored, ready.counted]
        rfl
      dsimp only [Handlers.init]
      cases task.arg.getChars with
      | none => exact ⟨trivial, fun _ => trivial⟩
      | some coreType =>
          refine .call trivial ((allocateCpu_steps coreType ready.fresh).mono (fun _ _ => ready)
            fun _ ends => ends) ?_
          rintro handle py ⟨fresh, none⟩
          refine ⟨trivial, rfl, fun _ => ⟨?_, fun _ => trivial⟩⟩
          show CountAnswered [] task.pyFunct 0 _
          rw [funct]
          exact { fresh, counted := none, stored := none ▸ zero }
  | setCb =>
      obtain rfl := early (Or.inr funct)
      have none : locals.py.steps locals.cpu = 0 := ready.counted
      refine ready.meets ?_ _ fun value locals still => by rw [funct]; exact still
      refine (setCallbacks_steps ready.fresh).mono (fun _ _ => trivial) ?_
      rintro out ⟨fresh, less⟩
      exact ⟨fresh, by omega⟩
  | getCycles =>
      refine .call trivial ((cycles_steps ready.fresh).mono (fun _ => False.elim) fun _ ends => ends)
        ?_
      rintro cycles py ⟨rfl, fresh, same⟩
      have still := ready.world fresh same.symm
      refine ⟨trivial, trivial, fun _ => ⟨?_, fun _ => trivial⟩⟩
      show CountAnswered completed task.pyFunct _ _
      rw [funct]
      refine ⟨⟨still.fresh, still.counted, ?_⟩, ?_⟩
      · show storedCycles (locals.py.steps locals.cpu) = storedCycles (py.steps locals.cpu)
        rw [same]
      · show reportedCycles (locals.py.steps locals.cpu)
          = reportedCycles (stepsAt locals.cpu completed.getLast?)
        rw [ready.counted]
  | simulate =>
      dsimp only [Handlers.simulate]
      cases task.arg.getSize with
      | none => exact ⟨trivial, fun _ => trivial⟩
      | some cycles =>
          refine .call trivial ((simulate_steps cycles ready.fresh).mono (fun _ _ => ready)
            fun _ ends => ends) ?_
          rintro _ stepped ⟨fresh, grown⟩
          refine ⟨trivial, .call trivial ((cycles_steps fresh).mono (fun _ => False.elim)
            fun _ ends => ends) ?_⟩
          rintro cycles py ⟨rfl, fresh, same⟩
          refine ⟨trivial, trivial, fun _ => ⟨?_, fun _ => ⟨trivial, fun _ => trivial⟩⟩⟩
          show CountAnswered completed task.pyFunct _ _
          rw [funct]
          refine ⟨fresh, ?_, ?_⟩
          · show stepsAt locals.cpu completed.getLast? ≤ py.steps locals.cpu
            rw [same, ← ready.counted]
            exact grown
          · show storedCycles (stepped.steps locals.cpu) = storedCycles (py.steps locals.cpu)
            rw [same]
  | setPc =>
      dsimp only [Handlers.setPc]
      cases task.arg.getSize with
      | none => exact ⟨trivial, fun _ => trivial⟩
      | some value =>
          exact ready.meets (setPc_steps value ready.fresh) _ fun value locals still => by
            rw [funct]
            exact still
  | readPc =>
      exact ready.meets (pc_steps ready.fresh) _ fun value locals still => by
        rw [funct]
        exact still
  | freeCpu => exact absurd funct kept

end VcmlPydrofoil
