import VcmlPydrofoil.Model.Moves

/-! The variables that only handlers write, and what a handler demands of them at each of its
actions: a demand that the whole script meets at its start is met wherever the worker stands.
-/

namespace VcmlPydrofoil

open Interaction (Tree)

variable {π β α : Type} {vp : Platform π β} {s after : State π β} {label : Label}

/-- The handle, the copy of the count and the Python world. -/
structure Locals (π : Type) where
  cpu : Option Handle
  nCycles : BitVec 32
  py : π

/-- Those of the core. -/
def State.locals (s : State π β) : Locals π := { cpu := s.cpu, nCycles := s.nCycles, py := s.py }

/-- What an action of a handler writes. -/
def Instr.effect : Instr π → Locals π → Locals π
  | .leave _ py, locals => { locals with py }
  | .storeCpu cpu, locals => { locals with cpu }
  | .storeCycles nCycles, locals => { locals with nCycles }
  | _, locals => locals

/-- Every action of the script finds the variables as it demands them. -/
def Script.Meets (demands : Instr π → Locals π → Prop) (script : Script π) (locals : Locals π)
    : Prop :=
  script.AlwaysFrom Instr.effect demands locals

/-- A plugin call leaves the variables alone until it returns. -/
theorem Script.Meets.call {demands : Instr π → Locals π → Prop} {function : ApiFunction}
    {body : ApiCall π α} {rest : α → π → Script π} {locals : Locals π} {ended : α × π → Prop}
    (entered : demands (.enter function) locals)
    (called : body.Always (fun request => demands (.callback request) locals) ended)
    (later
      : ∀ result py,
          ended (result, py)
          → demands (.leave function py) locals
            ∧ (rest result py).Meets demands { locals with py })
    : (Script.call function body rest).Meets demands locals := by
  refine ⟨entered, fun _ => Tree.alwaysFrom_bind (Tree.Always.embed ?_)⟩
  refine called.mono (fun _ allowed => ⟨rfl, allowed⟩) ?_
  rintro ⟨result, py⟩ ends
  exact ⟨(later result py ends).1, fun _ => (later result py ends).2⟩

-----------------------------------------------------------------------------------------
-- The worker
-----------------------------------------------------------------------------------------

/-- What is left of the handler meets the demands of its task. -/
def WorkerPc.Meets (api : Plugin π) (demands : PythonTask → Instr π → Locals π → Prop)
    (locals : Locals π)
    : WorkerPc π → Prop
  | .dispatch task =>
      (createHandlers api locals.cpu locals.py task).Meets (demands task) locals
  | .handler task script => script.Meets (demands task) locals
  | .post task request next | .notifyMem task request _ next | .getAnswer task request _ next =>
      demands task (.callback request) locals ∧ ∀ reply, (next reply).Meets (demands task) locals
  | _ => True

/-- Every move of the core keeps what the worker meets, by cases on the move. -/
theorem Move.meets {demands : PythonTask → Instr π → Locals π → Prop}
    (move : Move vp s label after) (meets : s.worker.Meets vp.api demands s.locals)
    (dispatched
      : ∀ task,
          s.worker = .take
          → after.worker = .dispatch task
          → after.worker.Meets vp.api demands after.locals)
    : after.worker.Meets vp.api demands after.locals := by
  cases move with
  | call c op pc =>
      rcases call_cases s c op pc with ⟨_, same⟩ | ⟨_, _, _, same⟩ <;> rw [same] <;> exact meets
  | finish c op id value =>
      obtain ⟨counts, returned, same⟩ := finish_eq s c op id value
      rw [same]
      exact meets
  | notifyTask c op id =>
      show (s.notifyTask c op id).worker.Meets vp.api demands s.locals
      rcases notifyTask_worker s c op id with ⟨_, woken⟩ | ⟨_, same⟩
      · rw [woken]
        trivial
      · rwa [same]
  | takeTask _ task _ pc => exact dispatched task pc rfl
  | dispatch _ task pc | filterCallback _ task request next pc | dropCallback _ task request next pc
  | beginCallback _ task request next pc | enter _ task function next pc
  | leave _ task function py next pc | storeCpu _ task cpu next pc
  | storeCycles _ task cycles next pc | setValue _ task value next pc
  | pushMemtask _ task request next pc | leaveCallback _ task request id next success pc =>
      rw [pc] at meets
      first | exact meets | exact meets.2 _
  | notifyHandler _ task next pc _ notified =>
      rw [pc] at meets
      obtain ⟨cv, client, rfl, _⟩ := notifyMemtask_frame notified
      exact meets.2 ()
  | notifyMem _ task request id next pc _ notified =>
      rw [pc] at meets
      obtain ⟨cv, client, rfl, _⟩ := notifyMemtask_frame notified
      exact meets
  | lock | workerTestTrue | workerTestFalse | sleep | exit | handled | badVariantAccess
  | brokenPromise | spuriousWorker =>
      trivial
  | _ => exact meets

end VcmlPydrofoil
