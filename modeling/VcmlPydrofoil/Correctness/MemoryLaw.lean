import VcmlPydrofoil.Library.ByteMemory
import VcmlPydrofoil.Model.CallbackPath
import VcmlPydrofoil.Model.MemoryMap
import VcmlPydrofoil.Model.Runs

/-! The accesses of a CPU during its simulations, through the closures, the callbacks and the
service of the core, on a bus that is a plain byte memory. A read returns what the memory holds
exactly when that is the word of the `memset` after the bus access.
-/

namespace VcmlPydrofoil

open Interaction (Program)

variable {π β χ : Type}

/-- The bus is a plain byte memory for doublewords at mapped addresses, and an access to any
other address leaves the memory alone.
-/
structure Bus.PlainMemory (bus : Bus β) (memory : β → ByteMemory) (mapped : BitVec 64 → Prop)
    : Prop where
  readMapped
    : ∀ state addr word,
        mapped addr
        → (bus.read state addr 8 word).1 = .ok
          ∧ (bus.read state addr 8 word).2.1 = (memory state).loadWord addr.toNat
  writeMapped
    : ∀ state addr value,
        mapped addr
        → (bus.write state addr 8 value).1 = .ok
          ∧ memory (bus.write state addr 8 value).2 = (memory state).storeWord addr.toNat value
  read : ∀ state addr word, memory (bus.read state addr 8 word).2.2 = memory state
  writeUnmapped
    : ∀ state addr value, ¬ mapped addr → memory (bus.write state addr 8 value).2 = memory state

/-- The address that the closures compute for an index. -/
def indexAddress (i : Nat) : BitVec 64 := BitVec.ofNat 64 (i <<< 3)

/-- The doubleword that the latest write to an index has stored, or the initial one. -/
def latestWrite (initial : Nat → BitVec 64) : List PyAccess → Nat → BitVec 64
  | [] => initial
  | .write i value :: rest => latestWrite (Function.update initial i value) rest
  | .read _ :: rest => latestWrite initial rest

/-- The aligned doublewords of a byte memory. -/
def alignedWords (memory : ByteMemory) (i : Nat) : BitVec 64 := memory.loadWord (8 * i)

/-- The index of an access. -/
def PyAccess.index : PyAccess → Nat
  | .read i => i
  | .write i _ => i

namespace C

/-- The CPU object and the core after a CPU has made these accesses during simulations. -/
def afterAccesses (vp : Platform π β) (payload : Pointer) (object : C χ) (state : Sequential π β)
    (history : List PyAccess)
    : C χ × Sequential π β :=
  let out := (intercept (some payload) (accessing history)).runIn (Sequential.invoke vp true)
    object state
  (out.1.2, out.2)

/-- What a read during a simulation returns to the CPU; `none` is an exception. -/
def readAfter (vp : Platform π β) (payload : Pointer) (i : Nat) (reached : C χ × Sequential π β)
    : Option (BitVec 64) :=
  ((pyread (some payload) i).runIn (Sequential.invoke vp true) reached.1 reached.2).1.1

end C

/-- The memory law of a history: what each of its reads returns, and what each of its writes
leaves unchanged.
-/
structure MemoryLaw (vp : Platform π β) (memory : β → ByteMemory) (mapped : BitVec 64 → Prop)
    (payload : Pointer) (object : C χ) (state : Sequential π β) (history : List PyAccess)
    : Prop where
  read
    : ∀ before i after,
        history = before ++ .read i :: after
        → let result := C.readAfter vp payload i (object.afterAccesses vp payload state before)
          (mapped (indexAddress i)
            → accepted (indexAddress i) = true
            → result = some (latestWrite (alignedWords (memory state.bus)) before i))
          ∧ (accepted (indexAddress i) = false → result = some 0)
  write
    : ∀ before i value after,
        history = before ++ .write i value :: after
        → let old := memory (object.afterAccesses vp payload state before).2.bus
          let new := memory
            (object.afterAccesses vp payload state (before ++ [.write i value])).2.bus
          (∀ j, j ≠ i → alignedWords new j = alignedWords old j)
          ∧ (accepted (indexAddress i) = false → new = old)

variable {vp : Platform π β} {memory : β → ByteMemory} {mapped : BitVec 64 → Prop}
variable {payload : Pointer} {object : C χ} {state : Sequential π β}

-----------------------------------------------------------------------------------------
-- One access
-----------------------------------------------------------------------------------------

/-- The address of an index below 2^61 fits. -/
theorem index_fits {i : Nat} (small : i < 2 ^ 61) : i <<< 3 < 2 ^ 64 := by
  rw [Nat.shiftLeft_eq]
  omega

/-- The address of an index below 2^61 is that of its doubleword. -/
theorem indexAddress_toNat {i : Nat} (small : i < 2 ^ 61) : (indexAddress i).toNat = 8 * i := by
  rw [indexAddress, BitVec.toNat_ofNat, Nat.mod_eq_of_lt (index_fits small), Nat.shiftLeft_eq,
    Nat.mul_comm]

/-- A read during a simulation leaves the memory alone, and its word is that of the `memset`
inside the windows and zero outside.
-/
theorem readMem_plain (plain : vp.bus.PlainMemory memory mapped) (state : Sequential π β)
    (i : Nat) (word : BitVec 64)
    : ∃ status left after,
        state.callback vp true (.readMem (indexAddress i) 8 word) = ((status, left), after)
        ∧ memory after.bus = memory state.bus
        ∧ (accepted (indexAddress i) = false → status = 0 ∧ left = 0)
        ∧ (accepted (indexAddress i) = true → mapped (indexAddress i)
            → status = 0 ∧ left = 0x9797979797979797) := by
  cases passed : accepted (indexAddress i) with
  | false =>
      refine ⟨0, 0, _, state.callback_filtered vp passed, rfl, fun _ => ⟨rfl, rfl⟩, ?_⟩
      exact fun impossible => nomatch impossible
  | true =>
      obtain ⟨reply, bus⟩ :=
        state.callback_served vp (.readMem (indexAddress i) 8 word) passed
      refine ⟨_, _, _, Prod.ext reply rfl, ?_, ?_, ?_⟩
      · rw [bus]
        exact plain.read state.bus (indexAddress i) word
      · exact fun impossible => nomatch impossible
      · intro _ inside
        have succeeded := (plain.readMapped state.bus (indexAddress i) word inside).1
        have filled : memset8 0x297 = 0x9797979797979797 := by decide
        refine ⟨?_, filled⟩
        show callbackStatus ((vp.bus.read state.bus (indexAddress i) 8 word).1 == .ok) = 0
        rw [succeeded]
        rfl

/-- A write during a simulation stores its value at mapped addresses inside the windows. -/
theorem writeMem_plain (plain : vp.bus.PlainMemory memory mapped) (state : Sequential π β)
    (i : Nat) (value : BitVec 64)
    : ∃ status after,
        state.callback vp true (.writeMem (indexAddress i) 8 value) = (status, after)
        ∧ (accepted (indexAddress i) = true → mapped (indexAddress i)
            → memory after.bus = (memory state.bus).storeWord (indexAddress i).toNat value)
        ∧ (¬ (accepted (indexAddress i) = true ∧ mapped (indexAddress i))
            → memory after.bus = memory state.bus) := by
  cases passed : accepted (indexAddress i) with
  | false =>
      refine ⟨0, _, state.callback_filtered vp passed, ?_, fun _ => rfl⟩
      exact fun impossible => nomatch impossible
  | true =>
      obtain ⟨reply, bus⟩ :=
        state.callback_served vp (.writeMem (indexAddress i) 8 value) passed
      refine ⟨_, _, Prod.ext reply rfl, ?_, ?_⟩
      · intro _ inside
        rw [bus]
        exact (plain.writeMapped state.bus (indexAddress i) value inside).2
      · intro elsewhere
        rw [bus]
        exact plain.writeUnmapped state.bus (indexAddress i) value
          (fun inside => elsewhere ⟨rfl, inside⟩)

/-- The memory holds these doublewords at the mapped addresses inside the windows. -/
def HoldsWords (memory : β → ByteMemory) (mapped : BitVec 64 → Prop) (words : Nat → BitVec 64)
    (bus : β)
    : Prop :=
  ∀ i, i < 2 ^ 61 → mapped (indexAddress i) → accepted (indexAddress i) = true
    → alignedWords (memory bus) i = words i

/-- A write changes its own doubleword only. -/
theorem alignedWords_store (memory : ByteMemory) {i j : Nat} (small : i < 2 ^ 61)
    (value : BitVec 64)
    : alignedWords (memory.storeWord (indexAddress i).toNat value) j
      = Function.update (alignedWords memory) i value j := by
  rw [indexAddress_toNat small, alignedWords]
  by_cases same : j = i
  · subst same
    rw [Function.update_self, ByteMemory.loadWord_storeWord]
  · rw [Function.update_of_ne same, alignedWords]
    exact ByteMemory.loadWord_storeWord_disjoint memory value (ByteMemory.aligned_disjoint same)

/-- A read goes on with the memory as it was. -/
theorem C.afterAccesses_read (plain : vp.bus.PlainMemory memory mapped) (object : C χ)
    (state : Sequential π β) {read : Pointer} (registered : object.read = some read) {i : Nat}
    (small : i < 2 ^ 61)
    : ∃ word after,
        memory after.bus = memory state.bus
        ∧ ∀ rest,
            object.afterAccesses vp payload state (.read i :: rest)
              = C.afterAccesses vp payload { object with mem := word } after rest := by
  obtain ⟨status, word, after, called, kept, _⟩ := readMem_plain plain state i object.mem
  refine ⟨word, after, kept, fun rest => ?_⟩
  have next := C.pyread_invoke payload registered (index_fits small) called
  simp only [C.afterAccesses, accessing, C.intercept, Program.runIn_bind, Program.runIn_attempt, next]

/-- A write goes on with its value in the memory, if it is mapped and inside the windows. -/
theorem C.afterAccesses_write (plain : vp.bus.PlainMemory memory mapped) (object : C χ)
    (state : Sequential π β) {write : Pointer} (registered : object.write = some write) {i : Nat}
    (small : i < 2 ^ 61) (value : BitVec 64)
    : ∃ after : Sequential π β,
        (accepted (indexAddress i) = true → mapped (indexAddress i)
          → memory after.bus = (memory state.bus).storeWord (indexAddress i).toNat value)
        ∧ (¬ (accepted (indexAddress i) = true ∧ mapped (indexAddress i))
          → memory after.bus = memory state.bus)
        ∧ ∀ rest,
            object.afterAccesses vp payload state (.write i value :: rest)
              = C.afterAccesses vp payload object after rest := by
  obtain ⟨status, after, called, inside, outside⟩ := writeMem_plain plain state i value
  refine ⟨after, inside, outside, fun rest => ?_⟩
  have next := C.pywrite_invoke payload registered (index_fits small) called
  simp only [C.afterAccesses, accessing, C.intercept, Program.runIn_bind, Program.runIn_attempt, next]

/-- After a history, the object differs in its buffer only, and the memory holds the latest
writes; by induction on the history.
-/
theorem C.afterAccesses_holds (payload : Pointer) (plain : vp.bus.PlainMemory memory mapped)
    {read write : Pointer}
    (history : List PyAccess) (small : ∀ access ∈ history, access.index < 2 ^ 61)
    (object : C χ) (readRegistered : object.read = some read)
    (writeRegistered : object.write = some write) (state : Sequential π β)
    (words : Nat → BitVec 64) (holds : HoldsWords memory mapped words state.bus)
    : ∃ word after,
        object.afterAccesses vp payload state history = ({ object with mem := word }, after)
        ∧ HoldsWords memory mapped (latestWrite words history) after.bus := by
  induction history generalizing object state words with
  | nil => exact ⟨object.mem, state, rfl, holds⟩
  | cons access rest ih =>
      have later : ∀ access ∈ rest, access.index < 2 ^ 61 := fun access member =>
        small access (by simp [member])
      cases access with
      | read i =>
          have fits : i < 2 ^ 61 := small (.read i) (by simp)
          obtain ⟨word, after, kept, next⟩ :=
            object.afterAccesses_read plain state readRegistered fits
          have still : HoldsWords memory mapped words after.bus := by
            unfold HoldsWords
            rw [kept]
            exact holds
          rw [next]
          exact ih later { object with mem := word } readRegistered writeRegistered after words still
      | write i value =>
          have fits : i < 2 ^ 61 := small (.write i value) (by simp)
          obtain ⟨after, inside, outside, next⟩ :=
            object.afterAccesses_write plain state writeRegistered fits value
          have still : HoldsWords memory mapped (Function.update words i value) after.bus := by
            intro j bound mappedJ acceptedJ
            by_cases target : accepted (indexAddress i) = true ∧ mapped (indexAddress i)
            · rw [inside target.1 target.2, alignedWords_store _ fits]
              by_cases same : j = i
              · subst same
                rw [Function.update_self, Function.update_self]
              · rw [Function.update_of_ne same, Function.update_of_ne same]
                exact holds j bound mappedJ acceptedJ
            · have different : j ≠ i := by
                rintro rfl
                exact target ⟨acceptedJ, mappedJ⟩
              rw [outside target, Function.update_of_ne different]
              exact holds j bound mappedJ acceptedJ
          rw [next]
          exact ih later object readRegistered writeRegistered after _ still

/-- The first access of a history, and then the rest. -/
theorem C.afterAccesses_cons (object : C χ) (state : Sequential π β) (access : PyAccess)
    (rest : List PyAccess)
    : object.afterAccesses vp payload state (access :: rest)
      = C.afterAccesses vp payload (object.afterAccesses vp payload state [access]).1
          (object.afterAccesses vp payload state [access]).2 rest := by
  cases access <;>
    simp only [C.afterAccesses, accessing, C.intercept, Program.runIn_bind, Program.runIn_attempt,
      Program.runIn_pure]

/-- A history in two parts, by induction on the first one. -/
theorem C.afterAccesses_append (object : C χ) (state : Sequential π β) (before after : List PyAccess)
    : object.afterAccesses vp payload state (before ++ after)
      = C.afterAccesses vp payload (object.afterAccesses vp payload state before).1
          (object.afterAccesses vp payload state before).2 after := by
  induction before generalizing object state with
  | nil => rfl
  | cons access rest ih =>
      rw [List.cons_append, object.afterAccesses_cons, ih, object.afterAccesses_cons state access rest]

-----------------------------------------------------------------------------------------
-- The law
-----------------------------------------------------------------------------------------

/-- What a read returns after any history of the object. -/
theorem C.readAfter_plain (plain : vp.bus.PlainMemory memory mapped) (object : C χ)
    {state : Sequential π β} {read : Pointer} (registered : object.read = some read) {i : Nat}
    (small : i < 2 ^ 61)
    : (accepted (indexAddress i) = false → C.readAfter vp payload i (object, state) = some 0)
      ∧ (accepted (indexAddress i) = true → mapped (indexAddress i)
        → C.readAfter vp payload i (object, state) = some 0x9797979797979797) := by
  obtain ⟨status, word, after, called, _, outside, inside⟩ :=
    readMem_plain plain state i object.mem
  rw [C.readAfter, C.pyread_invoke payload registered (index_fits small) called]
  constructor
  · intro refused
    obtain ⟨rfl, rfl⟩ := outside refused
    rfl
  · intro passed there
    obtain ⟨rfl, rfl⟩ := inside passed there
    rfl

/-- Writes meet the law in every history. -/
theorem C.afterAccesses_law (plain : vp.bus.PlainMemory memory mapped) (object : C χ)
    {write : Pointer} {state : Sequential π β} (registered : object.write = some write) {i : Nat}
    (small : i < 2 ^ 61) (value : BitVec 64)
    : let new := memory (object.afterAccesses vp payload state [.write i value]).2.bus
      (∀ j, j ≠ i → alignedWords new j = alignedWords (memory state.bus) j)
      ∧ (accepted (indexAddress i) = false → new = memory state.bus) := by
  obtain ⟨after, inside, outside, next⟩ :=
    object.afterAccesses_write plain state registered small value
  rw [next]
  show (∀ j, j ≠ i → alignedWords (memory after.bus) j = _)
    ∧ (accepted (indexAddress i) = false → memory after.bus = memory state.bus)
  constructor
  · intro j different
    by_cases target : accepted (indexAddress i) = true ∧ mapped (indexAddress i)
    · rw [inside target.1 target.2, alignedWords_store _ small, Function.update_of_ne different]
    · rw [outside target]
  · intro refused
    exact outside fun target => by simp [refused] at target

/-- The memory law holds of a history exactly when the memory holds the word of the `memset`
wherever the history reads a mapped doubleword inside the windows. The memory itself always holds
the latest writes.
-/
theorem memoryLaw_iff (plain : vp.bus.PlainMemory memory mapped) (object : C χ)
    (read write payload : Pointer) (readRegistered : object.read = some read)
    (writeRegistered : object.write = some write) (state : Sequential π β)
    (history : List PyAccess) (small : ∀ access ∈ history, access.index < 2 ^ 61)
    : (MemoryLaw vp memory mapped payload object state history
        ↔ ∀ before i after,
            history = before ++ .read i :: after
            → mapped (indexAddress i)
            → accepted (indexAddress i) = true
            → latestWrite (alignedWords (memory state.bus)) before i = 0x9797979797979797)
      ∧ ∀ before after,
          history = before ++ after
          → HoldsWords memory mapped (latestWrite (alignedWords (memory state.bus)) before)
              (object.afterAccesses vp payload state before).2.bus := by
  have reached := fun before suffix (whole : history = before ++ suffix) =>
    C.afterAccesses_holds payload plain before
      (fun access member => small access (by simp [whole, member])) object readRegistered
      writeRegistered state (alignedWords (memory state.bus)) (fun _ _ _ _ => rfl)
  refine ⟨⟨?_, ?_⟩, ?_⟩
  · intro law before i after whole there passed
    obtain ⟨word, final, ends, _⟩ := reached before _ whole
    have fits : i < 2 ^ 61 := small (.read i) (by simp [whole])
    have returned := (law.read before i after whole).1 there passed
    rw [ends, (C.readAfter_plain plain { object with mem := word } readRegistered
      fits).2 passed there] at returned
    exact (Option.some.inj returned).symm
  · intro filled
    constructor
    · intro before i after whole
      obtain ⟨word, final, ends, _⟩ := reached before _ whole
      have fits : i < 2 ^ 61 := small (.read i) (by simp [whole])
      rw [ends]
      obtain ⟨outside, inside⟩ := C.readAfter_plain
        plain { object with mem := word } readRegistered fits
      constructor
      · intro there passed
        rw [filled before i after whole there passed]
        exact inside passed there
      · exact outside
    · intro before i value after whole
      obtain ⟨word, final, ends, _⟩ := reached before _ whole
      have fits : i < 2 ^ 61 := small (.write i value) (by simp [whole])
      rw [object.afterAccesses_append state before, ends]
      exact C.afterAccesses_law plain { object with mem := word }
        writeRegistered fits value
  · intro before after whole
    obtain ⟨word, final, ends, holds⟩ := reached before after whole
    rw [ends]
    exact holds

/-- Eight bytes at the address lie inside the default RAM. -/
def inRam (addr : BitVec 64) : Bool := defaultMemoryMap.ram.includes (.ofAccess addr 8)

/-- A bus with the default RAM. -/
def ramPlatform : Platform Unit ByteMemory where
  api := scriptedPlugin none []
  bus := {
    read := fun memory addr _ word =>
      if inRam addr then (.ok, memory.loadWord addr.toNat, memory)
      else (.addressError, word, memory)
    write := fun memory addr _ value =>
      if inRam addr then (.ok, memory.storeWord addr.toNat value)
      else (.addressError, memory)
  }

/-- The default RAM is a plain memory. -/
theorem ramPlatform_plain : ramPlatform.bus.PlainMemory id (fun addr => inRam addr = true) where
  readMapped state addr word inside := by simp [ramPlatform, inside]
  writeMapped state addr value inside := by simp [ramPlatform, inside]
  read state addr word := by
    unfold ramPlatform
    dsimp only
    split <;> rfl
  writeUnmapped state addr value outside := by simp [ramPlatform, outside]

/-- A CPU object with the core's callbacks. -/
def simulatedObject : C Unit :=
  { rv64 := true, arg := none, read := some readMemPointer, write := some writeMemPointer }

/-- A core on a RAM of zeros. -/
def zeroedCore : Sequential Unit ByteMemory :=
  {
    cpu := some 1, nCycles := 0, py := (), bus := fun _ => 0
    accesses := [], callbacks := [], values := []
  }

theorem memoryLaw_fill
    : (ramPlatform.bus.PlainMemory id (fun addr => inRam addr = true)
        ∧ simulatedObject.read = some readMemPointer
        ∧ simulatedObject.write = some writeMemPointer)
      ∧ MemoryLaw ramPlatform id (fun addr => inRam addr = true) corePointer simulatedObject
          zeroedCore [.write 0x10000000 0x9797979797979797, .read 0x10000000] := by
  refine ⟨⟨ramPlatform_plain, rfl, rfl⟩, ?_⟩
  apply (memoryLaw_iff ramPlatform_plain simulatedObject readMemPointer writeMemPointer corePointer
    rfl rfl zeroedCore [.write 0x10000000 0x9797979797979797, .read 0x10000000] (by decide)).1.mpr
  intro before i after whole _ _
  rcases before with _ | ⟨first, before⟩
  · simp at whole
  · rcases before with _ | ⟨second, before⟩
    · simp only [List.cons_append, List.nil_append, List.cons.injEq, PyAccess.read.injEq] at whole
      obtain ⟨rfl, rfl, _⟩ := whole
      simp [latestWrite]
    · simp at whole

/-- A store of 42 into the RAM is read back as the word of the `memset`. -/
theorem memoryLaw_violated
    : C.readAfter ramPlatform corePointer 0x10000000
          (simulatedObject.afterAccesses ramPlatform corePointer zeroedCore [.write 0x10000000 42])
        = some 0x9797979797979797
      ∧ ¬ MemoryLaw ramPlatform id (fun addr => inRam addr = true) corePointer simulatedObject
          zeroedCore [.write 0x10000000 42, .read 0x10000000] := by
  have returned
      : C.readAfter ramPlatform corePointer 0x10000000
          (simulatedObject.afterAccesses ramPlatform corePointer zeroedCore [.write 0x10000000 42])
        = some 0x9797979797979797 := by
    decide
  refine ⟨returned, fun law => ?_⟩
  have expected := (law.read [.write 0x10000000 42] 0x10000000 [] rfl).1 (by decide) (by decide)
  have latest
      : latestWrite (alignedWords zeroedCore.bus) [.write 0x10000000 42] 0x10000000 = 42 := by
    simp [latestWrite]
  rw [returned] at expected
  exact absurd ((Option.some.inj expected).trans latest) (by decide)

end VcmlPydrofoil
