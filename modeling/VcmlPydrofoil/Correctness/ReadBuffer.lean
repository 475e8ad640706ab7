import VcmlPydrofoil.Model.CallbackPath
import VcmlPydrofoil.Model.Runs

/-! The buffer that all reads of a CPU object share. An earlier read shows through exactly where
`read_mem` succeeds without writing its destination: inside the windows while no simulation runs.
-/

namespace VcmlPydrofoil

open Interaction (Program)

variable {π β χ : Type}

/-- One `pyread(index)`, with the value of `sim_started` that its callback sees. -/
structure BufferRead where
  started : Bool
  index : Nat
  deriving DecidableEq

namespace C

/-- The CPU object and the core after these reads, whether or not they raise. -/
def afterReads (vp : Platform π β) (payload : Pointer) (object : C χ) (state : Sequential π β)
    : List BufferRead → C χ × Sequential π β
  | [] => (object, state)
  | read :: rest =>
      let out := (pyread (some payload) read.index).runIn (Sequential.invoke vp read.started)
        object state
      afterReads vp payload out.1.2 out.2 rest

/-- What a read returns to the CPU; `none` is an exception. -/
def readValue (vp : Platform π β) (payload : Pointer) (read : BufferRead)
    (reached : C χ × Sequential π β)
    : Option (BitVec 64) :=
  ((pyread (some payload) read.index).runIn (Sequential.invoke vp read.started)
    reached.1 reached.2).1.1

end C

/-- A read access of the bus does not look at what its buffer holds before. -/
def Bus.ReadsBlind (bus : Bus β) : Prop :=
  ∀ state addr size first second,
    (bus.read state addr size first).1 = (bus.read state addr size second).1
    ∧ (bus.read state addr size first).2.2 = (bus.read state addr size second).2.2

/-- Any two histories of reads that leave the same memory let the next read return the same. -/
def ReadsAlike (vp : Platform π β) (payload : Pointer) (object : C χ) (state : Sequential π β)
    (next : BufferRead)
    : Prop :=
  ∀ first second : List BufferRead,
    (object.afterReads vp payload state first).2.bus
      = (object.afterReads vp payload state second).2.bus
    → C.readValue vp payload next (object.afterReads vp payload state first)
      = C.readValue vp payload next (object.afterReads vp payload state second)

/-- Whenever `read_mem` returns 0, the word it leaves does not depend on the one it found. -/
def WritesDestination (vp : Platform π β) (state : Sequential π β) (started : Bool)
    (address : BitVec 64) (size : BitVec 32)
    : Prop :=
  ∀ first second,
    let one := (state.callback vp started (.readMem address size first)).1
    let two := (state.callback vp started (.readMem address size second)).1
    one.1 = 0 → two.1 = 0 → one.2 = two.2

variable {vp : Platform π β} {payload : Pointer} {object : C χ} {state : Sequential π β}

-----------------------------------------------------------------------------------------
-- The exits of `read_mem`
-----------------------------------------------------------------------------------------

/-- Outside the windows, a read clears its destination. -/
theorem readMem_filtered (state : Sequential π β) {started : Bool} {address : BitVec 64}
    (refused : accepted address = false) (size : BitVec 32) (word : BitVec 64)
    : state.callback vp started (.readMem address size word)
      = ((0, 0), state.leaveCallback (.readMem address size word) 0 0) :=
  state.callback_filtered vp refused

/-- Inside the windows and without a simulation, a read succeeds with the word it found. -/
theorem readMem_dropped (state : Sequential π β) {address : BitVec 64}
    (passed : accepted address = true) (size : BitVec 32) (word : BitVec 64)
    : state.callback vp false (.readMem address size word)
      = ((0, word), state.leaveCallback (.readMem address size word) 0 word) :=
  state.callback_dropped vp passed

/-- During a simulation, the status comes from the bus and the word from the `memset`. -/
theorem readMem_served (state : Sequential π β) {address : BitVec 64}
    (passed : accepted address = true) (word : BitVec 64)
    : ∃ after : Sequential π β,
        state.callback vp true (.readMem address 8 word)
          = ((callbackStatus ((vp.bus.read state.bus address 8 word).1 == .ok), memset8 0x297), after)
        ∧ after.bus = (vp.bus.read state.bus address 8 word).2.2 := by
  obtain ⟨reply, bus⟩ := state.callback_served vp (.readMem address 8 word) passed
  exact ⟨_, Prod.ext reply rfl, bus⟩

/-- `read_mem` writes its destination whenever it succeeds, except inside the windows while no
simulation runs.
-/
theorem writesDestination_iff (state : Sequential π β) (started : Bool) (address : BitVec 64)
    : WritesDestination vp state started address 8
      ↔ started = true ∨ accepted address = false := by
  cases passed : accepted address with
  | false =>
      simp only [or_true, iff_true]
      intro first second
      rw [readMem_filtered state passed, readMem_filtered state passed]
      exact fun _ _ => rfl
  | true =>
      cases started with
      | true =>
          simp only [true_or, iff_true]
          intro first second
          obtain ⟨_, one, _⟩ := readMem_served state passed first
          obtain ⟨_, two, _⟩ := readMem_served state passed second
          rw [one, two]
          exact fun _ _ => rfl
      | false =>
          simp only [Bool.false_eq_true, Bool.true_eq_false, or_self, iff_false]
          intro writes
          have same := writes 0 1
          rw [readMem_dropped state passed, readMem_dropped state passed] at same
          have equal : (0 : BitVec 64) = 1 := same rfl rfl
          exact absurd equal (by decide)

-----------------------------------------------------------------------------------------
-- Histories
-----------------------------------------------------------------------------------------

/-- Reads change the object in its buffer only, by induction on the history. -/
theorem C.afterReads_object {read : Pointer} (object : C χ) (reads : List BufferRead)
    (registered : object.read = some read) (state : Sequential π β)
    : ∃ word, (object.afterReads vp payload state reads).1 = { object with mem := word } := by
  induction reads generalizing object state with
  | nil => exact ⟨object.mem, rfl⟩
  | cons next rest ih =>
      rw [C.afterReads]
      by_cases fits : next.index <<< 3 < 2 ^ 64
      · rcases called : state.callback vp next.started
            (.readMem (BitVec.ofNat 64 (next.index <<< 3)) 8 object.mem) with ⟨⟨_, word⟩, after⟩
        rw [C.pyread_invoke payload registered fits called]
        obtain ⟨last, same⟩ := ih { object with mem := word } registered after
        exact ⟨last, same⟩
      · rw [C.pyread_refused fits]
        exact ih object registered state

/-- A read outside the windows clears the buffer and does not reach the bus. -/
theorem C.afterReads_filtered {read : Pointer} (object : C χ) (state : Sequential π β)
    (registered : object.read = some read) {i : Nat} (fits : i <<< 3 < 2 ^ 64)
    (refused : accepted (BitVec.ofNat 64 (i <<< 3)) = false)
    : ∃ after : Sequential π β,
        after.bus = state.bus
        ∧ ∀ rest,
            object.afterReads vp payload state (⟨true, i⟩ :: rest)
              = C.afterReads vp payload { object with mem := 0 } after rest := by
  refine ⟨state.leaveCallback (.readMem (BitVec.ofNat 64 (i <<< 3)) 8 object.mem) 0 0, rfl, ?_⟩
  intro rest
  rw [C.afterReads, C.pyread_invoke payload registered fits (readMem_filtered state refused 8 object.mem)]

/-- A read that is served leaves the word of the `memset` in the buffer. -/
theorem C.afterReads_served {read : Pointer} (object : C χ) (state : Sequential π β)
    (registered : object.read = some read) {i : Nat} (fits : i <<< 3 < 2 ^ 64)
    (passed : accepted (BitVec.ofNat 64 (i <<< 3)) = true)
    : ∃ after : Sequential π β,
        after.bus = (vp.bus.read state.bus (BitVec.ofNat 64 (i <<< 3)) 8 object.mem).2.2
        ∧ ∀ rest,
            object.afterReads vp payload state (⟨true, i⟩ :: rest)
              = C.afterReads vp payload { object with mem := memset8 0x297 } after rest := by
  obtain ⟨after, called, bus⟩ := readMem_served state passed object.mem
  refine ⟨after, bus, fun rest => ?_⟩
  rw [C.afterReads, C.pyread_invoke payload registered fits called]

/-- The value of the next read from the reply of its callback. -/
theorem C.readValue_eq {read : Pointer} {next : BufferRead} (fits : next.index <<< 3 < 2 ^ 64)
    {reached : C χ × Sequential π β} (registered : reached.1.read = some read)
    {status : BitVec 32} {word : BitVec 64} {after : Sequential π β}
    (called
      : reached.2.callback vp next.started
          (.readMem (BitVec.ofNat 64 (next.index <<< 3)) 8 reached.1.mem)
        = ((status, word), after))
    : C.readValue vp payload next reached = if status = 0 then some word else none := by
  rw [C.readValue, C.pyread_invoke payload registered fits called]

/-- Whatever the buffer holds, the next read returns what its callback replies. -/
theorem C.readValue_alike (blind : vp.bus.ReadsBlind) {next : BufferRead}
    (harmless
      : next.started = true
        ∨ accepted (BitVec.ofNat 64 (next.index <<< 3)) = false
        ∨ 2 ^ 64 ≤ next.index <<< 3)
    {one two : C χ × Sequential π β} {read : Pointer} (first : one.1.read = some read)
    (second : two.1.read = some read) (bus : one.2.bus = two.2.bus)
    : C.readValue vp payload next one = C.readValue vp payload next two := by
  by_cases fits : next.index <<< 3 < 2 ^ 64
  · cases passed : accepted (BitVec.ofNat 64 (next.index <<< 3)) with
    | false =>
        rw [C.readValue_eq fits first (readMem_filtered one.2 passed 8 one.1.mem),
          C.readValue_eq fits second (readMem_filtered two.2 passed 8 two.1.mem)]
    | true =>
        have started : next.started = true := by
          rcases harmless with started | refused | large
          · exact started
          · exact absurd passed (by simp [refused])
          · omega
        obtain ⟨_, oneCalled, _⟩ := readMem_served one.2 passed one.1.mem
        obtain ⟨_, twoCalled, _⟩ := readMem_served two.2 passed two.1.mem
        rw [← started] at oneCalled twoCalled
        rw [C.readValue_eq fits first oneCalled, C.readValue_eq fits second twoCalled, bus,
          (blind two.2.bus _ 8 one.1.mem two.1.mem).1]
  · rw [C.readValue, C.readValue, C.pyread_refused fits, C.pyread_refused fits]

/-- A served read and a filtered one leave different buffers in either order, and one bus. -/
theorem C.afterReads_swap (blind : vp.bus.ReadsBlind) {read : Pointer} (object : C χ)
    (registered : object.read = some read) (state : Sequential π β) {i : Nat}
    (fits : i <<< 3 < 2 ^ 64) (passed : accepted (BitVec.ofNat 64 (i <<< 3)) = true)
    : (object.afterReads vp payload state [⟨true, i⟩, ⟨true, 0⟩]).1 = { object with mem := 0 }
      ∧ (object.afterReads vp payload state [⟨true, 0⟩, ⟨true, i⟩]).1
        = { object with mem := memset8 0x297 }
      ∧ (object.afterReads vp payload state [⟨true, i⟩, ⟨true, 0⟩]).2.bus
        = (object.afterReads vp payload state [⟨true, 0⟩, ⟨true, i⟩]).2.bus := by
  have refused : accepted (BitVec.ofNat 64 (0 <<< 3)) = false := by decide
  have small : 0 <<< 3 < 2 ^ 64 := by decide
  obtain ⟨filled, served, fill⟩ :=
    object.afterReads_served state registered fits passed
  obtain ⟨one, oneBus, clear⟩ :=
    C.afterReads_filtered { object with mem := memset8 0x297 }
      filled registered small refused
  obtain ⟨cleared, clearedBus, start⟩ :=
    object.afterReads_filtered state registered small refused
  obtain ⟨two, twoBus, refill⟩ :=
    C.afterReads_served { object with mem := 0 } cleared registered
      fits passed
  rw [fill, clear, start, refill]
  refine ⟨rfl, rfl, ?_⟩
  show one.bus = two.bus
  rw [oneBus, served, twoBus, clearedBus]
  exact (blind state.bus _ 8 object.mem 0).2

/-- The next read returns the same after any two histories of reads that leave the same memory,
and `read_mem` then writes its destination, exactly when a simulation is running or the address
is outside the windows or does not fit.
-/
theorem readsAlike_iff (blind : vp.bus.ReadsBlind) (object : C χ) (read payload : Pointer)
    (registered : object.read = some read) (state : Sequential π β) (next : BufferRead)
    : (ReadsAlike vp payload object state next
        ↔ next.started = true
          ∨ accepted (BitVec.ofNat 64 (next.index <<< 3)) = false
          ∨ 2 ^ 64 ≤ next.index <<< 3)
      ∧ ∀ address,
          WritesDestination vp state next.started address 8
          ↔ next.started = true ∨ accepted address = false := by
  refine ⟨?_, writesDestination_iff state next.started⟩
  obtain ⟨started, i⟩ := next
  constructor
  · intro alike
    by_contra! leaks
    obtain ⟨idle, inside, fits⟩ := leaks
    have passed : accepted (BitVec.ofNat 64 (i <<< 3)) = true := by simpa using inside
    obtain rfl : started = false := by simpa using idle
    obtain ⟨one, two, bus⟩ :=
      object.afterReads_swap blind registered state fits passed
    have same := alike _ _ bus
    rw [C.readValue_eq fits (by rw [one]; exact registered)
        (readMem_dropped _ passed 8 _),
      C.readValue_eq fits (by rw [two]; exact registered)
        (readMem_dropped _ passed 8 _), one, two] at same
    have equal : some (0 : BitVec 64) = some (memset8 0x297) := same
    exact absurd equal (by decide)
  · intro harmless first second bus
    -- Both histories change the buffer only.
    obtain ⟨_, one⟩ := object.afterReads_object first registered state
    obtain ⟨_, two⟩ := object.afterReads_object second registered state
    apply C.readValue_alike blind harmless (by rw [one]; exact registered) (by rw [two]; exact registered)
    exact bus

/-- A CPU object with the core's callbacks, before any read. -/
def registeredObject : C Unit :=
  { rv64 := true, arg := none, read := some readMemPointer, write := some writeMemPointer }

/-- An idle core on the bus that accepts every access. -/
def idleCore : Sequential Unit Unit :=
  {
    cpu := some 1, nCycles := 0, py := (), bus := (), accesses := [], callbacks := [], values := []
  }

theorem readsAlike_running
    : ((scriptedPlatform none []).bus.ReadsBlind
        ∧ registeredObject.read = some readMemPointer)
      ∧ (ReadsAlike (scriptedPlatform none []) corePointer registeredObject idleCore
          ⟨true, 0x10000000⟩
          ↔ true = true
            ∨ accepted (BitVec.ofNat 64 (0x10000000 <<< 3)) = false
            ∨ 2 ^ 64 ≤ 0x10000000 <<< 3)
      ∧ ∀ address,
          WritesDestination (scriptedPlatform none []) idleCore true address 8
          ↔ true = true ∨ accepted address = false := by
  have blind : (scriptedPlatform none []).bus.ReadsBlind := fun _ _ _ _ _ => ⟨rfl, rfl⟩
  exact ⟨⟨blind, rfl⟩,
    readsAlike_iff blind registeredObject readMemPointer corePointer rfl idleCore ⟨true, 0x10000000⟩⟩

/-- With no simulation running, a read inside the RAM window returns 0 or the word of the
`memset`, whichever an earlier read has left in the buffer.
-/
theorem read_leaksEarlierRead
    : let first : List BufferRead := [⟨true, 0x10000000⟩, ⟨true, 0⟩]
      let second : List BufferRead := [⟨true, 0⟩, ⟨true, 0x10000000⟩]
      let one := registeredObject.afterReads (scriptedPlatform none []) corePointer idleCore first
      let two := registeredObject.afterReads (scriptedPlatform none []) corePointer idleCore second
      one.2.bus = two.2.bus
      ∧ C.readValue (scriptedPlatform none []) corePointer ⟨false, 0x10000000⟩ one = some 0
      ∧ C.readValue (scriptedPlatform none []) corePointer ⟨false, 0x10000000⟩ two
        = some 0x9797979797979797
      ∧ ¬ ReadsAlike (scriptedPlatform none []) corePointer registeredObject idleCore
          ⟨false, 0x10000000⟩
      ∧ ¬ WritesDestination (scriptedPlatform none []) idleCore false 0x80000000 8 := by
  have one
      : C.readValue (scriptedPlatform none []) corePointer ⟨false, 0x10000000⟩
          (registeredObject.afterReads (scriptedPlatform none []) corePointer idleCore
            [⟨true, 0x10000000⟩, ⟨true, 0⟩])
        = some 0 := by
    decide
  have two
      : C.readValue (scriptedPlatform none []) corePointer ⟨false, 0x10000000⟩
          (registeredObject.afterReads (scriptedPlatform none []) corePointer idleCore
            [⟨true, 0⟩, ⟨true, 0x10000000⟩])
        = some 0x9797979797979797 := by
    decide
  refine ⟨rfl, one, two, ?_, ?_⟩
  · intro alike
    have same := alike [⟨true, 0x10000000⟩, ⟨true, 0⟩] [⟨true, 0⟩, ⟨true, 0x10000000⟩] rfl
    rw [one, two] at same
    exact absurd same (by decide)
  · intro writes
    have same := writes 0 1 (by decide) (by decide)
    exact absurd same (by decide)

end VcmlPydrofoil
