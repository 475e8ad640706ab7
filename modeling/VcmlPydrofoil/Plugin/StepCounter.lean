import VcmlPydrofoil.Plugin.Objects

/-! The counter `C.steps` behind a handle, and what each entry point does to it: only a simulation
lets it grow, and only a rebuild sets it back.
-/

namespace VcmlPydrofoil

open Interaction (Tree Program)

variable {χ α γ : Type} {ext : Pydrofoil χ} {world : World χ} {cpu : Option Handle}

/-- The counter behind a handle; without an object nothing has been counted. -/
def World.steps (world : World χ) (cpu : Option Handle) : Nat :=
  ((world.object? cpu).map C.steps).getD 0

/-- The next handle is a new one. -/
def World.Fresh (world : World χ) : Prop := ∀ entry ∈ world.objects, entry.1 < world.nextHandle

/-- An object that changes keeps the handles. -/
theorem World.Fresh.update (fresh : world.Fresh) (object : C χ)
    : (world.update cpu object).Fresh := by
  intro entry member
  obtain ⟨old, before, rfl⟩ := List.mem_map.mp member
  have bound := fresh old before
  split
  · exact bound
  · exact bound

/-- The counter behind a live handle is that of its object. -/
theorem World.steps_update {object : C χ} (live : world.object? cpu = some object) (changed : C χ)
    : (world.update cpu changed).steps cpu = changed.steps := by
  unfold World.steps
  rw [World.object?_update live]
  rfl

-----------------------------------------------------------------------------------------
-- Entry points
-----------------------------------------------------------------------------------------

/-- What a body does to the counter of its object, an entry point does to the counter behind its
handle.
-/
theorem fromHandle_steps (related : Nat → Nat → Prop) (related_refl : ∀ n, related n n)
    {body : Py (C χ) α}
    (counts
      : ∀ object,
          body.Ensures object (fun _ => True) (fun _ next => related object.steps next.steps))
    (default : γ) (convert : α → Option γ) (fresh : world.Fresh)
    : (toApiCall (defExtern default convert (Gluecode.fromHandle cpu body) world)).Always
        (fun _ => True)
        (fun out => out.2.Fresh ∧ related (world.steps cpu) (out.2.steps cpu)) := by
  refine Tree.Always.embed (Tree.always_bind.mpr ?_)
  unfold Gluecode.fromHandle
  cases live : world.object? cpu with
  | none => exact ⟨fresh, related_refl _⟩
  | some object =>
      have before : world.steps cpu = object.steps := by
        unfold World.steps
        rw [live]
        rfl
      refine Tree.always_bind.mpr (Tree.Always.mono (counts object) (fun _ _ => trivial) ?_)
      intro out grown
      refine ⟨fresh.update out.2, ?_⟩
      rw [before, World.steps_update live]
      exact grown

/-- A step counts itself, whether or not it raises. -/
theorem C.step_steps (object : C χ)
    : (C.step ext).Ensures object (fun _ => True)
        (fun _ next => object.steps ≤ next.steps) := by
  cases built : object.cpu with
  | some cpu =>
      refine Tree.Always.mono (C.step_ensures object built) (fun _ _ => trivial) ?_
      rintro ⟨result, next⟩ ⟨state, word, rfl⟩
      exact Nat.le_succ _
  | none =>
      unfold C.step
      simp only [Program.ensures_bind, Program.ensures_modify, Program.ensures_get, built]
      exact Nat.le_succ _

/-- A rebuild sets the counter back or has raised. -/
theorem C.reset_steps (object : C χ)
    : (C.reset ext).Ensures object (fun _ => True)
        (fun result next => (result.isSome → next.steps = 0) ∧ next.steps ≤ object.steps) := by
  unfold C.reset
  simp only [Program.ensures_bind, Program.ensures_get]
  refine Tree.Always.mono (C.intercept_ensures _ _ _) (fun _ _ => trivial) ?_
  rintro ⟨result, next⟩ ⟨returned, word, rfl⟩
  obtain ⟨made, rfl⟩ := Option.isSome_iff_exists.mp returned
  cases made with
  | none => exact ⟨fun returned => absurd returned Bool.false_ne_true, Nat.le_refl _⟩
  | some state => exact ⟨fun _ => rfl, Nat.zero_le _⟩

/-- A method of the CPU object does not count. -/
theorem C.onCpu_steps (method : χ → Bool × χ) (object : C χ)
    : (C.onCpu method).Ensures object (fun _ => True)
        (fun _ next => object.steps = next.steps) := by
  unfold C.onCpu
  simp only [Program.ensures_bind, Program.ensures_get]
  split
  · simp only [Program.ensures_bind, Program.ensures_modify]
    split
    · rfl
    · rfl
  · rfl

/-- Reading a register does not count. -/
theorem C.readRegister_steps (name : String) (object : C χ)
    : (C.readRegister ext name).Ensures object (fun _ => True)
        (fun _ next => object.steps = next.steps) := by
  unfold C.readRegister
  simp only [Program.ensures_bind, Program.ensures_get]
  split
  · rfl
  · rfl

/-- A simulation lets the counter grow. -/
theorem simulate_steps (cycles : BitVec 64) (fresh : world.Fresh)
    : ((gluecode ext).pydrofoilCpuSimulate cpu cycles world).Always (fun _ => True)
        (fun out => out.2.Fresh ∧ world.steps cpu ≤ out.2.steps cpu) := by
  refine fromHandle_steps (· ≤ ·) Nat.le_refl (fun object => ?_) 0 toInt fresh
  have kept (state : C χ) (grown : object.steps ≤ state.steps)
      : (C.step ext).Ensures state (fun _ => True) (fun _ next => object.steps ≤ next.steps) :=
    (C.step_steps state).mono fun _ _ more => grown.trans more
  rw [Program.ensures_bind]
  refine (Program.Ensures.times kept cycles.toNat object (Nat.le_refl _)).mono ?_
  intro result next grown
  cases result with
  | some _ => exact grown
  | none => exact grown

/-- An installation keeps the counter or sets it back. -/
theorem setCallbacks_steps (fresh : world.Fresh)
    : ((gluecode ext).pydrofoilCpuSetRamReadWriteCallback cpu world).Always (fun _ => True)
        (fun out => out.2.Fresh ∧ out.2.steps cpu ≤ world.steps cpu) := by
  refine fromHandle_steps (fun before after => after ≤ before) Nat.le_refl (fun object => ?_) 0
    toInt fresh
  unfold C.setCallbacks
  simp only [Program.ensures_bind, Program.ensures_modify]
  split
  · simp only [Program.ensures_modify]
    refine Tree.Always.mono (C.reset_steps _) (fun _ _ => trivial) ?_
    rintro ⟨result, next⟩ ⟨_, less⟩
    cases result with
    | some _ => exact less
    | none => exact less
  · exact Nat.le_refl _

/-- Setting the pc does not count. -/
theorem setPc_steps (value : BitVec 64) (fresh : world.Fresh)
    : ((gluecode ext).pydrofoilCpuSetPc cpu value world).Always (fun _ => True)
        (fun out => out.2.Fresh ∧ world.steps cpu = out.2.steps cpu) := by
  refine fromHandle_steps (· = ·) (fun _ => rfl) (fun object => ?_) 0 toInt fresh
  rw [Program.ensures_bind]
  refine (C.onCpu_steps (ext.writeRegister "pc" value) object).mono ?_
  intro result next same
  cases result with
  | some _ => exact same
  | none => exact same

/-- Reading the pc does not count. -/
theorem pc_steps (fresh : world.Fresh)
    : ((gluecode ext).pydrofoilCpuPc cpu world).Always (fun _ => True)
        (fun out => out.2.Fresh ∧ world.steps cpu = out.2.steps cpu) :=
  fromHandle_steps (· = ·) (fun _ => rfl) (C.readRegister_steps "pc") 0 some fresh

/-- `pydrofoil_cpu_cycles` returns the counter, if it fits. It neither counts nor calls back. -/
theorem cycles_steps (fresh : world.Fresh)
    : ((gluecode ext).pydrofoilCpuCycles cpu world).Always (fun _ => False)
        (fun out =>
          out.1 = (toUInt64 (world.steps cpu)).getD 0
          ∧ out.2.Fresh
          ∧ out.2.steps cpu = world.steps cpu) := by
  refine Tree.Always.embed (Tree.always_bind.mpr ?_)
  unfold Gluecode.cpuCycles Gluecode.fromHandle
  cases live : world.object? cpu with
  | none =>
      have none : world.steps cpu = 0 := by
        unfold World.steps
        rw [live]
        rfl
      rw [none]
      exact ⟨rfl, fresh, none⟩
  | some object =>
      have before : world.steps cpu = object.steps := by
        unfold World.steps
        rw [live]
        rfl
      rw [before]
      exact ⟨rfl, fresh.update object, World.steps_update live object⟩

/-- A new object has counted nothing. -/
theorem allocateCpu_steps (spec : String) (fresh : world.Fresh)
    : ((gluecode ext).pydrofoilAllocateCpu spec world).Always (fun _ => True)
        (fun out => out.2.Fresh ∧ out.2.steps out.1 = 0) := by
  refine Tree.Always.embed (Tree.always_bind.mpr (Tree.always_bind.mpr ?_))
  refine Tree.Always.mono (C.reset_steps _) (fun _ _ => trivial) ?_
  rintro ⟨result, object⟩ ⟨zero, _⟩
  cases result with
  | none => exact ⟨fresh, rfl⟩
  | some done =>
      refine ⟨fun entry member => ?_, ?_⟩
      · rcases List.mem_append.mp member with old | new
        · exact Nat.lt_succ_of_lt (fresh entry old)
        · obtain rfl := List.mem_singleton.mp new
          exact Nat.lt_succ_self _
      · have missing : world.objects.lookup world.nextHandle = none := by
          refine List.lookup_eq_none_iff.mpr fun entry member => ?_
          have below := fresh entry member
          simpa using Nat.ne_of_gt below
        show ((((world.objects ++ [(world.nextHandle, _)]).lookup world.nextHandle)).map C.steps).getD 0 = 0
        rw [List.lookup_append, missing]
        simpa using zero rfl

end VcmlPydrofoil
