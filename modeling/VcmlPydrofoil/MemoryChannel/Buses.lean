import VcmlPydrofoil.Model.Sequential
import VcmlPydrofoil.Plugin.IssuedCalls

/-! Two buses that answer alike. A plugin whose callbacks are accesses to aligned doublewords does
the same on both.
-/

namespace VcmlPydrofoil

open Interaction (Tree)

variable {π β γ : Type}

-----------------------------------------------------------------------------------------
-- Handlers
-----------------------------------------------------------------------------------------

/-- The callbacks among the actions of a handler are accesses to aligned doublewords. -/
def Instr.Issued : Instr π → Prop
  | .callback request => request.Issued
  | _ => True

/-- A call of the plugin issues what its entry point and the rest of the handler do. -/
theorem Script.call_issued {α : Type} (function : ApiFunction) {body : ApiCall π α}
    {rest : α → π → Script π} (issues : body.Always MemCallback.Issued (fun _ => True))
    (others : ∀ result py, (rest result py).Always Instr.Issued (fun _ => True))
    : (Script.call function body rest).Always Instr.Issued (fun _ => True) := by
  refine ⟨trivial, fun _ => Tree.always_bind.mpr ?_⟩
  apply Tree.Always.embed
  refine Tree.Always.mono issues (fun _ issued => issued) ?_
  rintro ⟨result, py⟩ _
  exact ⟨trivial, fun _ => others result py⟩

/-- Every handler of such a plugin issues nothing else. -/
theorem createHandlers_issued {api : Plugin π} (issues : api.Issues) (cpu : Option Handle) (py : π)
    (task : PythonTask)
    : (createHandlers api cpu py task).Always Instr.Issued (fun _ => True) := by
  have ends {value : BitVec 64} : (Script.setValue value Script.done : Script π).Always
      Instr.Issued (fun _ => True) := ⟨trivial, fun _ => trivial⟩
  unfold createHandlers
  cases task.pyFunct with
  | init =>
      show (Handlers.init api py task).Always Instr.Issued _
      unfold Handlers.init
      split
      · exact ⟨trivial, fun _ => trivial⟩
      · exact Script.call_issued _ (issues.allocateCpu _ py) fun _ _ => ⟨trivial, fun _ => ends⟩
  | setCb =>
      exact Script.call_issued _ (issues.setRamReadWriteCallback cpu py) fun _ _ => ends
  | simulate =>
      show (Handlers.simulate api cpu py task).Always Instr.Issued _
      unfold Handlers.simulate
      split
      · exact ⟨trivial, fun _ => trivial⟩
      · refine Script.call_issued _ (issues.simulate cpu _ py) fun _ after => ?_
        refine Script.call_issued _ (issues.cycles cpu after) fun _ _ => ?_
        exact ⟨trivial, fun _ => ⟨trivial, fun _ => ⟨trivial, fun _ => trivial⟩⟩⟩
  | getCycles =>
      exact Script.call_issued _ (issues.cycles cpu py) fun _ _ => ⟨trivial, fun _ => ends⟩
  | setPc =>
      show (Handlers.setPc api cpu py task).Always Instr.Issued _
      unfold Handlers.setPc
      split
      · exact ⟨trivial, fun _ => trivial⟩
      · exact Script.call_issued _ (issues.setPc cpu _ py) fun _ _ => ends
  | readPc => exact Script.call_issued _ (issues.pc cpu py) fun _ _ => ends
  | freeCpu => exact Script.call_issued _ (issues.freeCpu cpu py) fun _ _ => ends

-----------------------------------------------------------------------------------------
-- Agreement
-----------------------------------------------------------------------------------------

/-- Two buses whose states stay related by accesses to aligned doublewords, and that answer these
accesses alike.
-/
structure Bus.Agree (first : Bus β) (second : Bus γ) (related : β → γ → Prop) : Prop where
  read
    : ∀ {state other} {addr : BitVec 64} (word : BitVec 64),
        related state other
        → (∃ i : Nat, addr.toNat = 8 * i)
        → (first.read state addr 8 word).1 = (second.read other addr 8 word).1
          ∧ related (first.read state addr 8 word).2.2 (second.read other addr 8 word).2.2
  write
    : ∀ {state other} {addr : BitVec 64} (value : BitVec 64),
        related state other
        → (∃ i : Nat, addr.toNat = 8 * i)
        → (first.write state addr 8 value).1 = (second.write other addr 8 value).1
          ∧ related (first.write state addr 8 value).2 (second.write other addr 8 value).2

namespace Sequential

/-- Two references that differ in the bus only. -/
structure Agree (related : β → γ → Prop) (first : Sequential π β) (second : Sequential π γ)
    : Prop where
  cpu : first.cpu = second.cpu
  nCycles : first.nCycles = second.nCycles
  py : first.py = second.py
  bus : related first.bus second.bus
  accesses : first.accesses = second.accesses
  callbacks : first.callbacks = second.callbacks
  values : first.values = second.values

variable {vp : Platform π β} {plain : Platform π γ} {related : β → γ → Prop}
variable {first : Sequential π β} {second : Sequential π γ}

/-- The service of an issued access. -/
theorem serve_agree (agree : vp.bus.Agree plain.bus related) {state : β} {other : γ}
    (relates : related state other) {request : MemCallback} (issued : request.Issued)
    : (serve vp.bus state (request.toMemAccess 0) request.destination).success
        = (serve plain.bus other (request.toMemAccess 0) request.destination).success
      ∧ (serve vp.bus state (request.toMemAccess 0) request.destination).destination
        = (serve plain.bus other (request.toMemAccess 0) request.destination).destination
      ∧ (serve vp.bus state (request.toMemAccess 0) request.destination).access
        = (serve plain.bus other (request.toMemAccess 0) request.destination).access
      ∧ related (serve vp.bus state (request.toMemAccess 0) request.destination).bus
          (serve plain.bus other (request.toMemAccess 0) request.destination).bus := by
  have size : (request.size.signExtend 64).setWidth 32 = 8 := by
    rw [issued.1]
    decide
  cases request with
  | readMem address _ word =>
      have aligned : ∃ i : Nat, address.toNat = 8 * i := issued.aligned
      obtain ⟨status, after⟩ := agree.read word relates aligned
      simp only [MemCallback.size] at size
      simp only [serve, MemCallback.toMemAccess, MemCallback.destination, size]
      exact ⟨congrArg (· == .ok) status, trivial, congrArg (BusAccess.mk _ _ _ _) status, after⟩
  | writeMem address _ value =>
      have aligned : ∃ i : Nat, address.toNat = 8 * i := issued.aligned
      obtain ⟨status, after⟩ := agree.write value relates aligned
      simp only [MemCallback.size] at size
      simp only [serve, MemCallback.toMemAccess, MemCallback.destination, size]
      exact ⟨congrArg (· == .ok) status, trivial, congrArg (BusAccess.mk _ _ _ _) status, after⟩

/-- An issued callback gets the same reply on both buses. -/
theorem callback_agree (agree : vp.bus.Agree plain.bus related) (started : Bool)
    (same : first.Agree related second) {request : MemCallback} (issued : request.Issued)
    : (first.callback vp started request).1 = (second.callback plain started request).1
      ∧ (first.callback vp started request).2.Agree related
          (second.callback plain started request).2 := by
  have left (status : BitVec 32) (word : BitVec 64)
      : (first.leaveCallback request status word).Agree related
          (second.leaveCallback request status word) :=
    { same with callbacks := by simp only [leaveCallback, same.callbacks] }
  unfold callback
  split
  · exact ⟨rfl, left 0 0⟩
  · split
    · exact ⟨rfl, left 0 request.destination⟩
    · obtain ⟨success, destination, access, bus⟩ := serve_agree agree same.bus issued
      simp only [success, destination, access]
      exact ⟨trivial, same.cpu, same.nCycles, same.py, bus,
        by simp only [leaveCallback, same.accesses],
        by simp only [leaveCallback, same.callbacks],
        same.values⟩

/-- So does every action of a handler. -/
theorem answer_agree (agree : vp.bus.Agree plain.bus related) (started : Bool)
    (same : first.Agree related second) {instr : Instr π} (issued : instr.Issued)
    : (first.answer vp started instr).1 = (second.answer plain started instr).1
      ∧ (first.answer vp started instr).2.Agree related
          (second.answer plain started instr).2 := by
  cases instr with
  | callback request => exact callback_agree agree started same issued
  | leave function py => exact ⟨rfl, { same with py := rfl }⟩
  | storeCpu cpu => exact ⟨rfl, { same with cpu := rfl }⟩
  | storeCycles cycles => exact ⟨rfl, { same with nCycles := rfl }⟩
  | setValue value =>
      exact ⟨rfl, { same with values := by simp only [answer, same.values] }⟩
  | enter | notifyMemtask | badVariantAccess => exact ⟨rfl, same⟩

/-- A task leaves what it leaves on the other bus. -/
theorem handle_agree (agree : vp.bus.Agree plain.bus related) (api : vp.api = plain.api)
    (issues : plain.api.Issues) (same : first.Agree related second) (task : PythonTask)
    : (first.handle vp task).Agree related (second.handle plain task) := by
  unfold handle
  rw [api, same.cpu, same.py]
  have steps (state : Sequential π β) (other : Sequential π γ) (instr : Instr π)
      (same : state.Agree related other) (issued : instr.Issued)
      : (state.answer vp task.simulates instr).1 = (other.answer plain task.simulates instr).1
        ∧ (state.answer vp task.simulates instr).2.Agree related
            (other.answer plain task.simulates instr).2 :=
    answer_agree agree task.simulates same issued
  exact ((createHandlers_issued issues second.cpu second.py task).run_related steps same).2

/-- So do all tasks, by induction on them. -/
theorem foldl_agree (agree : vp.bus.Agree plain.bus related) (api : vp.api = plain.api)
    (issues : plain.api.Issues) (same : first.Agree related second) (tasks : List PythonTask)
    : (tasks.foldl (handle vp) first).Agree related (tasks.foldl (handle plain) second) := by
  induction tasks generalizing first second with
  | nil => exact same
  | cons task rest ih => exact ih (handle_agree agree api issues same task)

end Sequential

end VcmlPydrofoil
