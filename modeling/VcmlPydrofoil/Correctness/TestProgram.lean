import VcmlPydrofoil.Correctness.BlockMemory
import VcmlPydrofoil.Plugin.IssuedCalls

/-! The test program as a whole: on its list of blocks it prints and returns what it would on a
plain memory of bytes, and after the allocation none of its checks fails.
-/

namespace VcmlPydrofoil

open Interaction (Tree Program)

variable {χ : Type}

namespace TestMain

-----------------------------------------------------------------------------------------
-- The memory
-----------------------------------------------------------------------------------------

/-- The two functions on a memory of bytes. -/
def byteFunctions : Environment ByteMemory := fun memory call =>
  (replyOf (byteReply memory call.toMemCallback) call, byteCall memory call.toMemCallback)

/-- A store whose words are the doublewords of a memory of bytes. -/
def Stands (mem : Option Mem) (memory : ByteMemory) : Prop :=
  ∃ store contents, mem = some store ∧ Represents store contents ∧ Agrees memory contents

/-- The empty store stands for zeros. -/
theorem Stands.empty : Stands (some Mem.empty) (fun _ => 0) := by
  refine ⟨Mem.empty, fun _ => 0, rfl, Represents.empty, ?_⟩
  intro address i _
  rw [ByteMemory.loadWord, ByteMemory.load_zero]
  rfl

/-- A call of the glue code is answered as from the bytes. -/
theorem Stands.functions {mem : Option Mem} {memory : ByteMemory} (stands : Stands mem memory)
    (call : CCallback) (issued : call.Issued)
    : (functions mem call).1 = (byteFunctions memory call).1
      ∧ Stands (TestMain.functions mem call).2 (byteFunctions memory call).2 := by
  obtain ⟨store, contents, rfl, rep, agrees⟩ := stands
  obtain ⟨after, called, rep', _⟩ := rep.callback (Nat.lt_succ_self _) call.toMemCallback
  have words := @Agrees.calls contents memory agrees [call.toMemCallback]
    fun request member => List.mem_singleton.mp member ▸ issued
  unfold TestMain.functions byteFunctions
  rw [Option.bind_some, called, agrees.reply issued]
  exact ⟨rfl, after, _, rfl, rep', words⟩

/-- The process on the blocks, and the one on the bytes. -/
def Agree (blocks : Process χ (Option Mem)) (bytes : Process χ ByteMemory) : Prop :=
  blocks.world = bytes.world ∧ Stands blocks.env bytes.env

/-- Both processes serve a call alike. -/
theorem Agree.serve (ext : Pydrofoil χ) {blocks : Process χ (Option Mem)}
    {bytes : Process χ ByteMemory} (agree : Agree blocks bytes) (request : Request)
    : (blocks.serve ext functions request).1 = (bytes.serve ext byteFunctions request).1
      ∧ Agree (blocks.serve ext functions request).2 (bytes.serve ext byteFunctions request).2 := by
  obtain ⟨same, stands⟩ := agree
  obtain ⟨result, still⟩ := Tree.Always.run_related
    (fun (mem : Option Mem) (memory : ByteMemory) call (stands : Stands mem memory) issued =>
      stands.functions call issued)
    (request.call_issued ext blocks.world) stands
  unfold Process.serve
  rw [← same]
  exact ⟨congrArg Prod.fst result, congrArg Prod.snd result, still⟩

-----------------------------------------------------------------------------------------
-- The calls of the program
-----------------------------------------------------------------------------------------

variable {ω α : Type} {answer : Environment ω} {process : Process χ ω} {cpu : Handle}

/-- The process has this CPU and no other one. -/
def Only (cpu : Handle) (process : Process χ ω) : Prop :=
  ∃ object, process.world.objects = [(cpu, object)]

/-- The object behind the handle. -/
theorem Only.live (only : Only cpu process)
    : ∃ object, process.world.object? (some cpu) = some object := by
  obtain ⟨object, single⟩ := only
  refine ⟨object, ?_⟩
  unfold World.object?
  rw [single]
  exact List.lookup_cons_self

/-- The object changes. -/
theorem Only.update (only : Only cpu process) (changed : C χ) (env : ω)
    : Only cpu { world := process.world.update (some cpu) changed, env } := by
  obtain ⟨object, single⟩ := only
  refine ⟨changed, ?_⟩
  unfold World.update
  rw [single]
  simp

/-- A call that works on the object keeps the CPU. -/
theorem Only.fromHandle {γ : Type} (only : Only cpu process) (answer : Environment ω)
    (body : Py (C χ) α) (default : γ) (convert : α → Option γ) (response : γ → ApiResult)
    : let out := ((defExtern default convert (Gluecode.fromHandle (some cpu) body)
        process.world).map (fun out => (response out.1, out.2))).run answer process.env
      (∃ value, out.1.1 = response value) ∧ Only cpu { world := out.1.2, env := out.2 } := by
  obtain ⟨object, live⟩ := only.live
  unfold Interaction.Tree.map
  dsimp only
  rw [Tree.run_bind, run_defExtern, run_fromHandle _ live]
  exact ⟨⟨_, rfl⟩, only.update _ _⟩

/-- The status of an entry point that does not simulate is zero. -/
theorem Only.entry (only : Only cpu process) (ext : Pydrofoil χ) (answer : Environment ω)
    (point : EntryPoint)
    : Only cpu (process.serve ext answer (.entry (some cpu) point)).2
      ∧ ((∀ steps, point ≠ .simulate steps)
        → (process.serve ext answer (.entry (some cpu) point)).1 = .status 0) := by
  have kept := only.fromHandle answer (point.body ext) 0 toInt .status
  rw [← point.function_eq ext (some cpu)] at kept
  refine ⟨kept.2, fun other => ?_⟩
  obtain ⟨object, live⟩ := only.live
  have returned
      : (process.serve ext answer (.entry (some cpu) point)).1
        = .status (point.call ext answer (some cpu) process.world process.env).1 := by
    unfold Process.serve Request.call Interaction.Tree.map
    dsimp only
    rw [Tree.run_bind]
    rfl
  rw [returned, point.call_eq ext answer live, EntryPoint.status_zero _ _ _ other]

/-- A count is returned. -/
theorem Only.cpuCycles (only : Only cpu process) (ext : Pydrofoil χ) (answer : Environment ω)
    : Only cpu (process.serve ext answer (.cpuCycles (some cpu))).2 :=
  (only.fromHandle answer _ 0 toUInt64 .value).2

/-- The pc is returned. -/
theorem Only.cpuPc (only : Only cpu process) (ext : Pydrofoil χ) (answer : Environment ω)
    : Only cpu (process.serve ext answer (.cpuPc (some cpu))).2 :=
  (only.fromHandle answer _ 0 some .value).2

/-- The CPU is freed, and nothing is left. -/
theorem Only.freeCpu (only : Only cpu process) (ext : Pydrofoil χ) (answer : Environment ω)
    : (process.serve ext answer (.freeCpu (some cpu))).1 = .status 0
      ∧ (process.serve ext answer (.freeCpu (some cpu))).2.world.objects = [] := by
  obtain ⟨object, live⟩ := only.live
  obtain ⟨_, single⟩ := only
  have freed
      : Gluecode.freeCpu (some cpu) process.world
        = .ret (some 0, { process.world with objects := [] }) := by
    rw [Gluecode.freeCpu_eq, live, single]
    simp
  have called
      : (Request.freeCpu (some cpu)).call ext process.world
        = .ret (.status 0, { process.world with objects := [] }) := by
    show (defExtern 0 toInt (Gluecode.freeCpu (some cpu)) process.world).map _ = _
    rw [defExtern, freed]
    rfl
  unfold Process.serve
  rw [called]
  exact ⟨rfl, rfl⟩

/-- The first allocation makes the only CPU, or there is none. -/
theorem serve_allocateCpu (ext : Pydrofoil χ) (answer : Environment ω) (env : ω)
    (spec fn : Option String)
    : let out := ({ env } : Process χ ω).serve ext answer (.allocateCpu spec fn)
      (out.1 = .cpu none ∧ out.2.world.objects = [])
      ∨ ∃ cpu, out.1 = .cpu (some cpu) ∧ Only cpu out.2 := by
  have called
      : ((Request.allocateCpu spec fn).call ext ({} : World χ)).Always (fun _ => True) fun out =>
          (out.1 = .cpu none ∧ out.2.objects = [])
          ∨ ∃ object, out.1 = .cpu (some 1) ∧ out.2.objects = [(1, object)] := by
    refine Tree.always_bind.mpr (Tree.always_bind.mpr (Tree.always_bind.mpr
      (Tree.Always.of_forall (fun _ => trivial) ?_ _)))
    rintro ⟨_ | _, object⟩
    · exact Or.inl ⟨rfl, rfl⟩
    · exact Or.inr ⟨_, rfl, rfl⟩
  rcases Tree.Always.run called answer env with failed | ⟨object, returned, single⟩
  · exact Or.inl failed
  · exact Or.inr ⟨1, returned, object, single⟩

-----------------------------------------------------------------------------------------
-- The program
-----------------------------------------------------------------------------------------

section Steps

variable (rest : ApiResult → Main α) (lines : List Output) (process)

theorem runIn_call (ext : Pydrofoil χ) (request : Request)
    : (call request >>= rest).runIn (fun process => process.serve ext answer) lines process
      = (rest (process.serve ext answer request).1).runIn (fun process => process.serve ext answer)
          lines (process.serve ext answer request).2 := by
  rw [Program.runIn_bind]
  rfl

theorem runIn_print (ext : Pydrofoil χ) (line : Output) (rest : Unit → Main α)
    : (print line >>= rest).runIn (fun process => process.serve ext answer) lines process
      = (rest ()).runIn (fun process => process.serve ext answer) (lines ++ [line]) process := by
  rw [Program.runIn_bind]
  rfl

end Steps

/-- What `main` prints after the allocation. -/
def session (cycles reset again last : BitVec 64) : List Output :=
  [
    .completed cycles, .reset, .runningQuietly, .resetPc reset, .completed again, .currentPc last,
    .freedSuccessfully
  ]

/-- After the allocation `main` runs to its end and frees the CPU. -/
theorem Only.mainWith (only : Only cpu process) (ext : Pydrofoil χ) (answer : Environment ω)
    (steps : BitVec 32)
    : let out := (TestMain.mainWith cpu steps).runIn (fun process => process.serve ext answer) [] process
      (∃ cycles reset again last, out.1 = (some 0, session cycles reset again last))
      ∧ out.2.world.objects = [] := by
  unfold TestMain.mainWith
  have installed := (only.entry ext answer
    (.setRamReadWriteCallback readMemPointer writeMemPointer memPointer)).1
  have simulated := (installed.entry ext answer (.simulate (steps.signExtend 64))).1
  have counted := simulated.cpuCycles ext answer
  have reset := (counted.entry ext answer .reset).1
  have quiet := (reset.entry ext answer (.setVerbosity 0)).1
  have read := quiet.cpuPc ext answer
  obtain ⟨set, accepted⟩ := read.entry ext answer (.setPc 4096)
  have again := (set.entry ext answer (.simulate (steps.signExtend 64))).1
  have recounted := again.cpuCycles ext answer
  have reread := recounted.cpuPc ext answer
  obtain ⟨freed, empty⟩ := reread.freeCpu ext answer
  have zero := accepted fun _ same => by cases same
  simp only [runIn_call, runIn_print, zero, freed, ApiResult.int, ne_eq, not_true_eq_false, ↓reduceIte]
  exact ⟨⟨_, _, _, _, rfl⟩, empty⟩

/-- How `main` ends: without a CPU, either before the simulation, with one of two lines, or at its
last line.
-/
structure Ends (argc : Nat) (exit : Option (BitVec 32)) (lines : List Output)
    (cpus : List (Handle × C χ))
    : Prop where
  freed : cpus = []
  printed
    : (argc < 3 ∧ exit = some (-1) ∧ lines = [.usage])
      ∨ (3 ≤ argc ∧ exit = some (-1) ∧ lines = [.failedToAllocate])
      ∨ (3 ≤ argc
        ∧ exit = some 0
        ∧ ∃ cycles reset again last, lines = session cycles reset again last)

/-- Whatever the CPU and the functions do, `main` ends so. -/
theorem runMain_ends (ext : Pydrofoil χ) (answer : Environment ω) (env : ω) (argc : Nat)
    (binary : String) (steps : BitVec 32)
    : let out := runMain ext answer env argc binary steps
      Ends argc out.1.1 out.1.2 out.2.world.objects := by
  unfold runMain main
  by_cases few : argc < 3
  · simp only [few, ↓reduceIte, runIn_print]
    exact ⟨rfl, Or.inl ⟨few, rfl, rfl⟩⟩
  · have enough : 3 ≤ argc := Nat.le_of_not_lt few
    simp only [few, ↓reduceIte, runIn_call]
    rcases serve_allocateCpu ext answer env (some "rv64") (some binary) with
      ⟨returned, empty⟩ | ⟨cpu, returned, only⟩
    · simp only [returned, ApiResult.cpu?, runIn_print]
      exact ⟨empty, Or.inr (Or.inl ⟨enough, rfl, rfl⟩)⟩
    · simp only [returned, ApiResult.cpu?]
      obtain ⟨⟨cycles, reset, again, last, printed⟩, empty⟩ := only.mainWith ext answer steps
      refine ⟨empty, Or.inr (Or.inr ⟨enough, ?_, cycles, reset, again, last, ?_⟩)⟩
      · exact congrArg Prod.fst printed
      · exact congrArg Prod.snd printed

/-- The test program refines itself on a plain memory: with any CPU and any arguments, `main` on its
list of blocks returns and prints what it does on bytes that are zero at first, and the blocks stand
for these bytes to the end. Once the CPU is allocated `main` does not fail, and it frees the CPU.
-/
theorem main_refines (ext : Pydrofoil χ) (argc : Nat) (binary : String) (steps : BitVec 32)
    : let blocks := runMain ext functions (some Mem.empty) argc binary steps
      let bytes := runMain ext byteFunctions (fun _ => 0) argc binary steps
      blocks.1 = bytes.1
      ∧ blocks.2.world = bytes.2.world
      ∧ Stands blocks.2.env bytes.2.env
      ∧ Ends argc blocks.1.1 blocks.1.2 blocks.2.world.objects := by
  have asks : ((main argc binary steps) []).Always (fun _ => True) (fun _ => True) :=
    Tree.Always.of_forall (fun _ => trivial) (fun _ => trivial) _
  obtain ⟨same, world, stands⟩ := Tree.Always.run_related
    (fun (blocks : Process χ (Option Mem)) (bytes : Process χ ByteMemory) request
        (agree : Agree blocks bytes) _ => agree.serve ext request)
    asks (⟨rfl, Stands.empty⟩ : Agree { env := some Mem.empty } { env := fun _ => 0 })
  exact ⟨same, world, stands, runMain_ends ext functions (some Mem.empty) argc binary steps⟩

end TestMain

end VcmlPydrofoil
