import VcmlPydrofoil.Model.Core

/-! The shape of a handler: which plugin functions it calls, that it sets its promise exactly
once, after the last of them, and what it still does afterwards.
-/

namespace VcmlPydrofoil

open Interaction (Tree)

variable {π β : Type}

/-- The plugin functions that a handler calls, in order. -/
def Funct.calls : Funct → List ApiFunction
  | .init => [.allocateCpu]
  | .setCb => [.cpuSetRamReadWriteCallback]
  | .getCycles => [.cpuCycles]
  | .simulate => [.cpuSimulate, .cpuCycles]
  | .setPc => [.cpuSetPc]
  | .readPc => [.cpuPc]
  | .freeCpu => [.freeCpu]

/-- One call of a plugin function that starts and ends. -/
def ApiFunction.bracket (function : ApiFunction) : List ApiEvent :=
  [.enter function, .leave function]

/-- The call history of a handler that ran to its end. -/
def Funct.events (funct : Funct) : List ApiEvent :=
  funct.calls.flatMap ApiFunction.bracket

/-- What a handler does after it has set its promise. -/
def Funct.tail : Funct → Script π
  | .simulate => Script.notifyMemtask Script.done
  | _ => Script.done

/-- The argument is the alternative that the handler extracts. -/
def PythonTask.WellTyped (task : PythonTask) : Prop :=
  match task.pyFunct with
  | .init => task.arg.getChars.isSome
  | .simulate => task.arg.getSize.isSome
  | .setPc => task.arg.getSize.isSome
  | _ => True

/-- Every operation stores the alternative that the handler of its task extracts. -/
theorem Operation.task_wellTyped (op : Operation) (result : Nat)
    : (op.task result).WellTyped := by
  cases op <;> simp [PythonTask.WellTyped, Operation.task, Operation.pyFunct, Operation.arg,
    TaskArg.getChars, TaskArg.getSize]

/-- The promise is still to be set, on every path exactly once; before it the script makes the
calls `events`, and after it the script is the handler's tail. Only `Init` stores the handle,
and only the handlers that read the counter store the cycles.
-/
inductive Script.Pending (funct : Funct) : List ApiEvent → Script π → Prop
  | callback (request : MemCallback) {next : request.Reply → Script π} {events : List ApiEvent}
    (below : ∀ reply, Pending funct events (next reply))
    : Pending funct events (.ask (.callback request) next)
  | enter (function : ApiFunction) {next : Unit → Script π} {events : List ApiEvent}
    (below : Pending funct events (next ()))
    : Pending funct (.enter function :: events) (.ask (.enter function) next)
  | leave (function : ApiFunction) (py : π) {next : Unit → Script π} {events : List ApiEvent}
    (below : Pending funct events (next ()))
    : Pending funct (.leave function :: events) (.ask (.leave function py) next)
  | storeCpu (cpu : Option Handle) {next : Unit → Script π} {events : List ApiEvent}
    (init : funct = .init) (below : Pending funct events (next ()))
    : Pending funct events (.ask (.storeCpu cpu) next)
  | storeCycles (cycles : BitVec 32) {next : Unit → Script π} {events : List ApiEvent}
    (counts : funct = .getCycles ∨ funct = .simulate) (below : Pending funct events (next ()))
    : Pending funct events (.ask (.storeCycles cycles) next)
  | setValue (value : BitVec 64) {next : Unit → Script π} (below : next () = funct.tail)
    : Pending funct [] (.ask (.setValue value) next)

/-- A plugin call adds its own bracket, by induction on the callbacks it makes. -/
theorem Script.Pending.call {α : Type} {funct : Funct} {events : List ApiEvent}
    (function : ApiFunction) (body : ApiCall π α) {rest : α → π → Script π}
    (below : ∀ result py, Pending funct events (rest result py))
    : Pending funct (function.bracket ++ events) (Script.call function body rest) := by
  apply Pending.enter
  induction body with
  | ret value => exact .leave function value.2 (below value.1 value.2)
  | ask request next ih => exact .callback request (fun reply => ih reply)

/-- A handler of a well-typed task makes its calls and then sets its promise once. -/
theorem createHandlers_pending (api : Plugin π) (cpu : Option Handle) (py : π)
    {task : PythonTask} (typed : task.WellTyped)
    : Script.Pending task.pyFunct task.pyFunct.events (createHandlers api cpu py task) := by
  unfold PythonTask.WellTyped at typed
  unfold createHandlers
  cases funct : task.pyFunct <;> simp only [funct] at typed <;>
    simp only [Funct.events, Funct.calls, List.flatMap_cons, List.flatMap_nil]
  case init =>
    obtain ⟨coreType, arg⟩ := Option.isSome_iff_exists.mp typed
    simp only [Handlers.init, arg]
    exact .call _ _ (fun handle _ => .storeCpu handle rfl (.setValue 0 rfl))
  case setCb => exact .call _ _ (fun res _ => .setValue _ rfl)
  case getCycles => exact .call _ _ (fun cycles _ => .storeCycles _ (Or.inl rfl) (.setValue _ rfl))
  case simulate =>
    obtain ⟨cycles, arg⟩ := Option.isSome_iff_exists.mp typed
    simp only [Handlers.simulate, arg]
    exact .call _ _ (fun _ py =>
      .call _ _ (fun cycles _ => .storeCycles _ (Or.inr rfl) (.setValue 0 rfl)))
  case setPc =>
    obtain ⟨value, arg⟩ := Option.isSome_iff_exists.mp typed
    simp only [Handlers.setPc, arg]
    exact .call _ _ (fun res _ => .setValue _ rfl)
  case readPc => exact .call _ _ (fun value _ => .setValue _ rfl)
  case freeCpu => exact .call _ _ (fun _ _ => .setValue 0 rfl)

end VcmlPydrofoil
