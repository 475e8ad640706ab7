import VcmlPydrofoil.Model.EntryPoints

/-! What the methods of class `C` do in any environment: one lemma for each of them.
-/

namespace VcmlPydrofoil

open Interaction (Tree Program)

variable {χ ω α : Type} {ext : Pydrofoil χ} (answer : Environment ω) (env : ω) (object : C χ)

namespace C

/-- The call goes to a function of this object, with this payload. -/
def Calls (object : C χ) (payload : Option Pointer) : CCallback → Prop
  | .read function _ _ _ _ passed => object.read = some function ∧ payload = some passed
  | .write function _ _ _ _ passed => object.write = some function ∧ payload = some passed

/-- A read calls the registered function with the payload of its closure. -/
theorem pyread_ensures (payload : Option Pointer) (i : Nat)
    : (pyread payload i).Ensures object (object.Calls payload)
        (fun _ next => ∃ word, next = { object with mem := word }) := by
  unfold pyread
  simp only [Program.ensures_bind, Program.ensures_get]
  split
  · rename_i read payload registered
    split
    · simp only [Program.ensures_bind, Program.ensures_ask, Program.ensures_modify]
      refine ⟨⟨registered, rfl⟩, fun reply => ?_⟩
      split
      · exact ⟨_, rfl⟩
      · exact ⟨_, rfl⟩
    · exact ⟨object.mem, rfl⟩
  · exact ⟨object.mem, rfl⟩

/-- A write calls the registered function with the payload of its closure. -/
theorem pywrite_ensures (payload : Option Pointer) (i : Nat) (value : BitVec 64)
    : (pywrite payload i value).Ensures object (object.Calls payload)
        (fun _ next => next = object) := by
  unfold pywrite
  simp only [Program.ensures_bind, Program.ensures_get]
  split
  · rename_i write payload registered
    split
    · simp only [Program.ensures_bind, Program.ensures_ask]
      refine ⟨⟨registered, rfl⟩, fun reply => ?_⟩
      split
      · rfl
      · rfl
    · rfl
  · rfl

/-- All calls of the extension go to the registered functions, by induction on its tree. -/
theorem intercept_ensures (object : C χ) (payload : Option Pointer)
    (tree : Tree PyAccess PyAccess.Reply α)
    : (intercept payload tree).Ensures object (object.Calls payload)
        (fun result next => result.isSome = true ∧ ∃ word, next = { object with mem := word }) := by
  induction tree generalizing object with
  | ret value => exact ⟨rfl, object.mem, rfl⟩
  | ask access next ih =>
      cases access with
      | read i =>
          rw [intercept, Program.ensures_bind, Program.ensures_attempt]
          refine (pyread_ensures object payload i).mono ?_
          rintro result _ ⟨word, rfl⟩
          exact ih result { object with mem := word }
      | write i value =>
          rw [intercept, Program.ensures_bind, Program.ensures_attempt]
          refine (pywrite_ensures object payload i value).mono ?_
          rintro result next rfl
          exact ih result.isSome next

/-- The extension returns and has changed nothing but the buffer. -/
theorem intercept_runIn (payload : Option Pointer) (tree : Tree PyAccess PyAccess.Reply α)
    : ∃ value word after,
        (intercept payload tree).runIn answer object env
          = ((some value, { object with mem := word }), after) := by
  obtain ⟨returned, word, changed⟩ := (intercept_ensures object payload tree).runIn answer env
  obtain ⟨value, returned⟩ := Option.isSome_iff_exists.mp returned
  exact ⟨value, word, _, Prod.ext (Prod.ext returned changed) rfl⟩

/-- The extension returns what its tree can return, by induction on the tree. -/
theorem intercept_ended (object : C χ) (payload : Option Pointer) {ended : α → Prop}
    {tree : Tree PyAccess PyAccess.Reply α} (always : tree.Always (fun _ => True) ended)
    : (intercept payload tree).Ensures object (fun _ => True)
        (fun result _ => ∀ value, result = some value → ended value) := by
  induction tree generalizing object with
  | ret value =>
      intro result same
      obtain rfl := Option.some.inj same
      exact always
  | ask access next ih =>
      cases access with
      | read i =>
          rw [intercept, Program.ensures_bind, Program.ensures_attempt]
          refine Tree.Always.mono (pyread_ensures object payload i) (fun _ _ => trivial) ?_
          exact fun out _ => ih out.1 out.2 (always.2 out.1)
      | write i value =>
          rw [intercept, Program.ensures_bind, Program.ensures_attempt]
          refine Tree.Always.mono (pywrite_ensures object payload i value) (fun _ _ => trivial) ?_
          exact fun out _ => ih out.1.isSome out.2 (always.2 out.1.isSome)

/-- The object with a new CPU object, built with its own callbacks. -/
def rebuilt (object : C χ) (state : χ) : C χ :=
  {
    object with
    steps := 0
    cpu := some {
      state
      payload := object.callbacks
      generation := (object.cpu.map (fun old => old.generation + 1)).getD 0
    }
  }

/-- The constructor of the CPU with the callbacks of the object: the state of the new CPU, unless
it raises, and the buffer and the environment it leaves.
-/
def construct (ext : Pydrofoil χ) (object : C χ) (env : ω) : Option χ × BitVec 64 × ω :=
  let out := (intercept object.callbacks
    (ext.create object.rv64 object.arg object.callbacks.isSome)).runIn answer object env
  (out.1.1.join, out.1.2.mem, out.2)

/-- A reset either raises and has changed nothing but the buffer, or replaces the CPU object. -/
theorem reset_runIn
    : (reset ext).runIn answer object env
      = ((((construct answer ext object env).1.map fun _ => ()),
          match (construct answer ext object env).1 with
          | some state =>
              { object with mem := (construct answer ext object env).2.1 }.rebuilt state
          | none => { object with mem := (construct answer ext object env).2.1 }),
          (construct answer ext object env).2.2) := by
  obtain ⟨value, word, after, constructed⟩ := intercept_runIn answer env object object.callbacks
    (ext.create object.rv64 object.arg object.callbacks.isSome)
  have outcome : construct answer ext object env = (value, word, after) := by
    unfold construct
    rw [constructed]
    rfl
  rw [outcome]
  unfold reset
  simp only [Program.runIn_bind, Program.runIn_get, constructed]
  cases value with
  | none => rfl
  | some state => rfl

/-- An installation registers the functions, and the payload if `Callbacks` does not raise. -/
theorem setCallbacks_runIn (read write payload : Pointer)
    : (setCallbacks ext read write payload).runIn answer object env
      = ((if ext.callbacks then some () else none,
          {
            object with
            read := some read, write := some write, mem := 0
            callbacks := if ext.callbacks then some payload else object.callbacks
          }), env) := by
  unfold setCallbacks
  rw [Program.runIn_bind, Program.runIn_modify]
  cases ext.callbacks with
  | true => rfl
  | false => rfl

/-- A step counts itself and then runs the CPU. -/
theorem step_runIn {cpu : Cpu χ} (built : object.cpu = some cpu)
    : ∃ (completed : Bool) (state : χ) (word : BitVec 64) (after : ω),
        (step ext).runIn answer object env
          = ((if completed then some () else none,
              {
                object with
                mem := word, steps := object.steps + 1, cpu := some { cpu with state }
              }), after) := by
  obtain ⟨rv64, arg, callbacks, read, write, mem, handle, current, steps⟩ := object
  obtain rfl : current = some cpu := built
  obtain ⟨⟨completed, state⟩, word, after, stepped⟩ := intercept_runIn answer env
    ⟨rv64, arg, callbacks, read, write, mem, handle, some cpu, steps + 1⟩ cpu.payload
    (ext.step cpu.state)
  refine ⟨completed, state, word, after, ?_⟩
  unfold step
  simp only [Program.runIn_bind, Program.runIn_modify, Program.runIn_get, stepped]
  cases completed with
  | true => rfl
  | false => rfl

/-- A step calls the registered functions, and keeps everything but the buffer, the counter and the
state of its CPU.
-/
theorem step_ensures {cpu : Cpu χ} (built : object.cpu = some cpu)
    : (step ext).Ensures object (object.Calls cpu.payload)
        (fun _ next => ∃ state word,
          next = {
            object with
            mem := word, steps := object.steps + 1, cpu := some { cpu with state }
          }) := by
  obtain ⟨rv64, arg, callbacks, read, write, mem, handle, current, steps⟩ := object
  obtain rfl : current = some cpu := built
  unfold step
  simp only [Program.ensures_bind, Program.ensures_modify, Program.ensures_get]
  refine (intercept_ensures ⟨rv64, arg, callbacks, read, write, mem, handle, some cpu, steps + 1⟩
    cpu.payload (ext.step cpu.state)).mono ?_
  rintro result _ ⟨returned, word, rfl⟩
  obtain ⟨⟨completed, state⟩, rfl⟩ := Option.isSome_iff_exists.mp returned
  cases completed with
  | true => exact ⟨state, word, rfl⟩
  | false => exact ⟨state, word, rfl⟩

/-- A method of the CPU object changes nothing but its state. -/
theorem onCpu_runIn {cpu : Cpu χ} (built : object.cpu = some cpu) (method : χ → Bool × χ)
    : (onCpu method).runIn answer object env
      = ((if (method cpu.state).1 then some () else none,
          { object with cpu := some { cpu with state := (method cpu.state).2 } }), env) := by
  unfold onCpu
  simp only [Program.runIn_bind, Program.runIn_get, built, Program.runIn_modify]
  cases (method cpu.state).1 with
  | true => rfl
  | false => rfl

/-- A register is read from the CPU object, if there is one, and nothing changes. -/
theorem readRegister_runIn (name : String)
    : (readRegister ext name).runIn answer object env
      = ((object.cpu.bind (fun cpu => ext.readRegister name cpu.state), object), env) := by
  unfold readRegister
  simp only [Program.runIn_bind, Program.runIn_get]
  split
  · rename_i value found
    rw [found]
    rfl
  · rename_i missing
    rw [missing]
    rfl

end C

/-- No entry point loses the CPU object. -/
theorem EntryPoint.body_built {cpu : Cpu χ} (built : object.cpu = some cpu) (entry : EntryPoint)
    : ∃ last, ((entry.body ext).runIn answer object env).1.2.cpu = some last := by
  cases entry with
  | simulate steps =>
      have kept (state : C χ) (holds : ∃ last, state.cpu = some last)
          : (C.step ext).Ensures state (fun _ => True) (fun _ next => ∃ last, next.cpu = some last) := by
        obtain ⟨last, here⟩ := holds
        refine Tree.Always.mono (C.step_ensures state here) (fun _ _ => trivial) ?_
        rintro ⟨result, next⟩ ⟨state, word, rfl⟩
        exact ⟨_, rfl⟩
      rw [EntryPoint.body, Program.runIn_returning]
      exact (Program.Ensures.times kept steps.toNat object ⟨cpu, built⟩).runIn answer env
  | reset =>
      rw [EntryPoint.body, Program.runIn_returning, C.reset_runIn]
      cases (C.construct answer ext object env).1 with
      | none => exact ⟨cpu, built⟩
      | some state => exact ⟨_, rfl⟩
  | setRamReadWriteCallback read write payload =>
      rw [EntryPoint.body, Program.runIn_bind, C.setCallbacks_runIn]
      cases ext.callbacks with
      | false => exact ⟨cpu, built⟩
      | true =>
          simp only [↓reduceIte]
          rw [Program.runIn_returning, C.reset_runIn]
          split
          · exact ⟨_, rfl⟩
          · exact ⟨cpu, built⟩
  | setVerbosity verbose =>
      rw [EntryPoint.body, Program.runIn_returning, C.onCpu_runIn answer env object built]
      exact ⟨_, rfl⟩
  | setPc value =>
      rw [EntryPoint.body, Program.runIn_returning, C.onCpu_runIn answer env object built]
      exact ⟨_, rfl⟩

/-- An entry point other than `simulate` has status 0, whether or not its body raises. -/
theorem EntryPoint.status_zero {entry : EntryPoint} (other : ∀ steps, entry ≠ .simulate steps)
    : ((((entry.body ext).runIn answer object env).1.1.bind toInt).getD 0 : BitVec 32) = 0 := by
  have zero (result : Option Unit)
      : ((result.map (fun _ => (0 : Int))).bind toInt).getD 0 = (0 : BitVec 32) := by
    cases result <;> rfl
  cases entry with
  | simulate steps => exact absurd rfl (other steps)
  | reset => rw [EntryPoint.body, Program.runIn_returning, zero]
  | setRamReadWriteCallback read write payload =>
      rw [EntryPoint.body, Program.runIn_bind, C.setCallbacks_runIn]
      cases ext.callbacks with
      | false => rfl
      | true =>
          simp only [↓reduceIte]
          rw [Program.runIn_returning, zero]
  | setVerbosity verbose => rw [EntryPoint.body, Program.runIn_returning, zero]
  | setPc value => rw [EntryPoint.body, Program.runIn_returning, zero]

end VcmlPydrofoil
