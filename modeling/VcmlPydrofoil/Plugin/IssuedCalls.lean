import VcmlPydrofoil.Model.MemoryCallbacks
import VcmlPydrofoil.Model.Requests
import VcmlPydrofoil.Plugin.Objects

/-! Every callback of the glue code is an access to one aligned doubleword, whatever the extension
does and whatever the callbacks reply.
-/

namespace VcmlPydrofoil

open Interaction (Tree Program)

variable {χ α : Type}

/-- A call that reaches the core as an access to one aligned doubleword. -/
def CCallback.Issued (call : CCallback) : Prop := call.toMemCallback.Issued

/-- The entry points of a plugin ask nothing but accesses to aligned doublewords. -/
structure Plugin.Issues {π : Type} (api : Plugin π) : Prop where
  allocateCpu
    : ∀ spec py, (api.pydrofoilAllocateCpu spec py).Always MemCallback.Issued (fun _ => True)
  freeCpu : ∀ cpu py, (api.pydrofoilFreeCpu cpu py).Always MemCallback.Issued (fun _ => True)
  simulate
    : ∀ cpu steps py,
        (api.pydrofoilCpuSimulate cpu steps py).Always MemCallback.Issued (fun _ => True)
  cycles : ∀ cpu py, (api.pydrofoilCpuCycles cpu py).Always MemCallback.Issued (fun _ => True)
  pc : ∀ cpu py, (api.pydrofoilCpuPc cpu py).Always MemCallback.Issued (fun _ => True)
  setPc
    : ∀ cpu value py, (api.pydrofoilCpuSetPc cpu value py).Always MemCallback.Issued (fun _ => True)
  setRamReadWriteCallback
    : ∀ cpu py,
        (api.pydrofoilCpuSetRamReadWriteCallback cpu py).Always MemCallback.Issued (fun _ => True)

namespace C

/-- A program of the glue code that only issues such calls. -/
abbrev Issues {σ : Type} (program : Py σ α) (state : σ) : Prop :=
  program.Ensures state CCallback.Issued (fun _ _ => True)

theorem pyread_issues (object : C χ) (payload : Option Pointer) (i : Nat)
    : Issues (pyread payload i) object := by
  unfold Issues pyread
  simp only [Program.ensures_bind, Program.ensures_get]
  split
  · split
    · next fits =>
        simp only [Program.ensures_bind, Program.ensures_ask, Program.ensures_modify]
        refine ⟨⟨rfl, i, fits, rfl⟩, fun reply => ?_⟩
        split <;> trivial
    · trivial
  · trivial

theorem pywrite_issues (object : C χ) (payload : Option Pointer) (i : Nat) (value : BitVec 64)
    : Issues (pywrite payload i value) object := by
  unfold Issues pywrite
  simp only [Program.ensures_bind, Program.ensures_get]
  split
  · split
    · next fits =>
        simp only [Program.ensures_bind, Program.ensures_ask]
        refine ⟨⟨rfl, i, fits, rfl⟩, fun reply => ?_⟩
        split <;> trivial
    · trivial
  · trivial

/-- All calls of the extension are issued by the closures, by induction on its tree. -/
theorem intercept_issues (object : C χ) (payload : Option Pointer)
    (tree : Tree PyAccess PyAccess.Reply α)
    : Issues (intercept payload tree) object := by
  induction tree generalizing object with
  | ret value => trivial
  | ask access next ih =>
      cases access with
      | read i =>
          rw [Issues, intercept, Program.ensures_bind, Program.ensures_attempt]
          exact (pyread_issues object payload i).mono fun result next _ => ih result next
      | write i value =>
          rw [Issues, intercept, Program.ensures_bind, Program.ensures_attempt]
          exact (pywrite_issues object payload i value).mono fun result next _ =>
            ih result.isSome next

variable (ext : Pydrofoil χ)

theorem reset_issues (object : C χ) : Issues (reset ext) object := by
  unfold Issues reset
  simp only [Program.ensures_bind, Program.ensures_get]
  refine (intercept_issues object object.callbacks _).mono ?_
  intro result next _
  cases result with
  | none => trivial
  | some built => cases built <;> trivial

theorem step_issues (object : C χ) : Issues (step ext) object := by
  unfold Issues step
  simp only [Program.ensures_bind, Program.ensures_modify, Program.ensures_get]
  split
  · next cpu _ =>
      rw [Program.ensures_bind]
      refine (intercept_issues _ cpu.payload (ext.step cpu.state)).mono ?_
      intro result next _
      cases result with
      | none => trivial
      | some out =>
          obtain ⟨completed, state⟩ := out
          cases completed <;> trivial
  · trivial

theorem setCallbacks_issues (object : C χ) (read write payload : Pointer)
    : Issues (setCallbacks ext read write payload) object := by
  unfold Issues setCallbacks
  simp only [Program.ensures_bind, Program.ensures_modify]
  split <;> trivial

theorem onCpu_issues (object : C χ) (method : χ → Bool × χ) : Issues (onCpu method) object := by
  unfold Issues onCpu
  simp only [Program.ensures_bind, Program.ensures_get]
  split
  · next cpu _ =>
      obtain ⟨completed, state⟩ := method cpu.state
      cases completed <;> trivial
  · trivial

theorem readRegister_issues (object : C χ) (name : String)
    : Issues (readRegister ext name) object := by
  unfold Issues readRegister
  simp only [Program.ensures_bind, Program.ensures_get]
  split <;> trivial

/-- A sequence issues what its parts issue. -/
theorem Issues.bind {σ β : Type} {first : Py σ α} {rest : α → Py σ β} {state : σ}
    (issues : Issues first state) (others : ∀ value next, Issues (rest value) next)
    : Issues (first >>= rest) state := by
  rw [Issues, Program.ensures_bind]
  refine issues.mono ?_
  intro result next _
  cases result with
  | none => trivial
  | some value => exact others value next

end C

namespace Gluecode

open C (Issues)

/-- A body on the object behind a handle. -/
theorem fromHandle_issues (i : Option Handle) {body : Py (C χ) α}
    (issues : ∀ object, Issues body object) (world : World χ)
    : Issues (fromHandle i body) world := by
  unfold Issues Program.Ensures fromHandle
  split
  · next object _ => exact Tree.always_bind.mpr ((issues object).mono fun _ _ _ => trivial)
  · trivial

end Gluecode

/-- The entry points with a status. -/
theorem EntryPoint.function_issues (ext : Pydrofoil χ) (i : Option Handle) (entry : EntryPoint)
    (world : World χ)
    : C.Issues (entry.function ext i) world := by
  rw [EntryPoint.function_eq]
  refine Gluecode.fromHandle_issues i (fun object => ?_) world
  cases entry with
  | simulate steps =>
      refine C.Issues.bind ?_ fun _ _ => trivial
      exact Program.Ensures.times (fun state _ => C.step_issues ext state) steps.toNat object
        trivial
  | reset => exact (C.reset_issues ext object).bind fun _ _ => trivial
  | setRamReadWriteCallback read write payload =>
      refine (C.setCallbacks_issues ext object _ _ _).bind fun _ next => ?_
      exact (C.reset_issues ext next).bind fun _ _ => trivial
  | setVerbosity verbose => exact (C.onCpu_issues object _).bind fun _ _ => trivial
  | setPc value => exact (C.onCpu_issues object _).bind fun _ _ => trivial

namespace Gluecode

theorem allocateCpu_issues (ext : Pydrofoil χ) (spec fn : Option String) (world : World χ)
    : C.Issues (allocateCpu ext spec fn) world := by
  refine Tree.always_bind.mpr (Tree.Always.mono (C.reset_issues ext _)
    (fun _ issued => issued) ?_)
  rintro ⟨result, object⟩ _
  cases result with
  | none => trivial
  | some made => trivial

theorem freeCpu_issues (i : Option Handle) (world : World χ) : C.Issues (freeCpu i) world := by
  unfold C.Issues freeCpu
  simp only [Program.ensures_bind, Program.ensures_get]
  split
  · trivial
  · trivial

theorem cpuCycles_issues (i : Option Handle) (world : World χ)
    : C.Issues (cpuCycles i) world := by
  refine fromHandle_issues i (fun object => ?_) world
  simp only [C.Issues, Program.ensures_bind, Program.ensures_get, Program.ensures_pure]

theorem cpuPc_issues (ext : Pydrofoil χ) (i : Option Handle) (world : World χ)
    : C.Issues (cpuPc ext i) world :=
  fromHandle_issues i (fun object => C.readRegister_issues ext object "pc") world

end Gluecode

/-- An entry point asks what its program issues. -/
theorem toApiCall_issues {σ γ : Type} {default : γ} {convert : α → Option γ} {body : Py σ α}
    {state : σ} (issues : C.Issues body state)
    : (toApiCall (defExtern default convert body state)).Always MemCallback.Issued
        (fun _ => True) := by
  unfold toApiCall defExtern Interaction.Tree.map
  apply Tree.Always.embed
  exact Tree.always_bind.mpr (Tree.Always.mono issues (fun _ issued => issued) fun _ _ => trivial)

/-- Every callback of the glue code is an access to one aligned doubleword. -/
theorem gluecode_issued (ext : Pydrofoil χ) : (gluecode ext).Issues where
  allocateCpu spec world :=
    toApiCall_issues (Gluecode.allocateCpu_issues ext (some spec) none world)
  freeCpu cpu world := toApiCall_issues (Gluecode.freeCpu_issues cpu world)
  simulate cpu steps world :=
    toApiCall_issues (EntryPoint.function_issues ext cpu (.simulate steps) world)
  cycles cpu world := toApiCall_issues (Gluecode.cpuCycles_issues cpu world)
  pc cpu world := toApiCall_issues (Gluecode.cpuPc_issues ext cpu world)
  setPc cpu value world :=
    toApiCall_issues (EntryPoint.function_issues ext cpu (.setPc value) world)
  setRamReadWriteCallback cpu world :=
    toApiCall_issues (EntryPoint.function_issues ext cpu
      (.setRamReadWriteCallback readMemPointer writeMemPointer corePointer) world)

/-- Every callback of a call of the C interface is an access to one aligned doubleword. -/
theorem Request.call_issued (ext : Pydrofoil χ) (request : Request) (world : World χ)
    : (request.call ext world).Always CCallback.Issued (fun _ => True) := by
  have converted {α γ : Type} {body : Py (World χ) α} (issues : C.Issues body world) (default : γ)
      (convert : α → Option γ) (response : γ → ApiResult)
      : ((defExtern default convert body world).map (fun out => (response out.1, out.2))).Always
          CCallback.Issued (fun _ => True) :=
    Tree.always_bind.mpr
      (Tree.always_bind.mpr (Tree.Always.mono issues (fun _ issued => issued) fun _ _ => trivial))
  cases request with
  | allocateCpu spec fn =>
      exact converted (Gluecode.allocateCpu_issues ext spec fn world) none some .cpu
  | freeCpu i => exact converted (Gluecode.freeCpu_issues i world) 0 toInt .status
  | entry i point => exact converted (point.function_issues ext i world) 0 toInt .status
  | cpuCycles i => exact converted (Gluecode.cpuCycles_issues i world) 0 toUInt64 .value
  | cpuPc i => exact converted (Gluecode.cpuPc_issues ext i world) 0 some .value

end VcmlPydrofoil
