import VcmlPydrofoil.Model.CApi

/-! The memory callbacks and the service of their requests: the address filter of
`memory_callbacks.cpp`, the queued `MemAccess` of `core.h`, and the bus access in the loop of
`PydrofoilCore::simulate`.
-/

namespace VcmlPydrofoil

/-- The first test of both callbacks: above the boot memory and below the RAM. -/
def betweenWindows (address : BitVec 64) : Bool :=
  address < 0x80000000#64 && address > 0x1fff#64

/-- The second test of both callbacks: above the RAM window or below the boot memory. -/
def outsideWindows (address : BitVec 64) : Bool :=
  address > 0x8fffffff#64 || address < 0x1000#64

/-- The filter lets an address pass when neither test returns early. -/
def accepted (address : BitVec 64) : Bool :=
  !betweenWindows address && !outsideWindows address

/-- `memset(word, byte, 8)`: every byte becomes `(unsigned char) byte`. -/
def memset8 (byte : BitVec 32) : BitVec 64 :=
  BitVec.replicate 8 (byte.setWidth 8)

/-- `PydrofoilCore::MemTask`. -/
inductive MemTask where
  | read
  | write
  deriving DecidableEq

/-- `PydrofoilCore::MemAccess`. `result` names the shared state of its promise. The pointer
`dest` is that of the callback in progress; `value` is only set for a write.
-/
structure MemAccess where
  type : MemTask
  addr : BitVec 64
  size : BitVec 64
  value : BitVec 64
  result : Nat
  deriving DecidableEq

/-- The access that a callback posts. The `int` size is widened to `size_t`. -/
def MemCallback.toMemAccess (result : Nat) : MemCallback → MemAccess
  | .readMem address size _ =>
      { type := .read, addr := address, size := size.signExtend 64, value := 0, result := result }
  | .writeMem address size value =>
      { type := .write, addr := address, size := size.signExtend 64, value := value, result := result }

/-- The address argument of a callback. -/
def MemCallback.address : MemCallback → BitVec 64
  | .readMem address _ _ => address
  | .writeMem address _ _ => address

/-- The size argument of a callback. -/
def MemCallback.size : MemCallback → BitVec 32
  | .readMem _ size _ => size
  | .writeMem _ size _ => size

/-- A call as `pyread` and `pywrite` make it: eight bytes at `i << 3`. -/
def MemCallback.Issued (callback : MemCallback) : Prop :=
  callback.size = 8
  ∧ ∃ i : Nat, i <<< 3 < 2 ^ 64 ∧ callback.address = BitVec.ofNat 64 (i <<< 3)

/-- The word that `*destination` holds when the callback starts. -/
def MemCallback.destination : MemCallback → BitVec 64
  | .readMem _ _ destination => destination
  | .writeMem _ _ _ => 0

/-- The callback returns `status`, and `*destination` then holds `word`. -/
def MemCallback.reply (status : BitVec 32) (word : BitVec 64)
    : (callback : MemCallback) → callback.Reply
  | .readMem _ _ _ => (status, word)
  | .writeMem _ _ _ => status

/-- The early return of the filter: a read clears its destination. -/
def MemCallback.filteredReply (callback : MemCallback) : callback.Reply :=
  callback.reply 0 0

/-- The early return when no simulation runs: nothing is stored. -/
def MemCallback.droppedReply (callback : MemCallback) : callback.Reply :=
  callback.reply 0 callback.destination

/-- `return res.get() ? 0 : 1`. -/
def callbackStatus (success : Bool) : BitVec 32 :=
  if success then 0 else 1

-----------------------------------------------------------------------------------------
-- The service of an access
-----------------------------------------------------------------------------------------

/-- `tlm::tlm_response_status`. -/
inductive TlmResponseStatus where
  | ok
  | incomplete
  | genericError
  | addressError
  | commandError
  | burstError
  | byteEnableError
  deriving DecidableEq

/-- The bus behind the `data` socket: any state machine of reads and writes. A read also
returns the word in its buffer, given the word there before.
-/
structure Bus (β : Type) where
  read (bus : β) (addr : BitVec 64) (size : BitVec 32) (word : BitVec 64)
    : TlmResponseStatus × BitVec 64 × β
  write (bus : β) (addr : BitVec 64) (size : BitVec 32) (value : BitVec 64)
    : TlmResponseStatus × β

/-- One access as the bus saw it. -/
structure BusAccess where
  type : MemTask
  addr : BitVec 64
  size : BitVec 32
  value : BitVec 64
  status : TlmResponseStatus
  deriving DecidableEq

/-- The outcome of serving one access. -/
structure Service (β : Type) where
  success : Bool
  destination : BitVec 64
  bus : β
  access : BusAccess

/-- Lines 119–125 of `PydrofoilCore::simulate`. The size is narrowed to the socket's
`unsigned int`, and a read is followed by the `memset` of line 122.
-/
def serve {β : Type} (bus : Bus β) (state : β) (memtask : MemAccess) (destination : BitVec 64)
    : Service β :=
  let size := memtask.size.setWidth 32
  match memtask.type with
  | .read =>
      let (status, _word, next) := bus.read state memtask.addr size destination
      {
        success := status == .ok, destination := memset8 0x297, bus := next
        access := { type := .read, addr := memtask.addr, size, value := 0, status }
      }
  | .write =>
      let (status, next) := bus.write state memtask.addr size memtask.value
      {
        success := status == .ok, destination, bus := next
        access := { type := .write, addr := memtask.addr, size, value := memtask.value, status }
      }

/-- An address that the glue code issues is a multiple of eight. -/
theorem MemCallback.Issued.aligned {callback : MemCallback} (issued : callback.Issued)
    : ∃ i : Nat, callback.address.toNat = 8 * i := by
  obtain ⟨_, i, fits, same⟩ := issued
  refine ⟨i, ?_⟩
  rw [same, BitVec.toNat_ofNat, Nat.mod_eq_of_lt fits, Nat.shiftLeft_eq, Nat.mul_comm]

/-- The filter accepts exactly the two windows of literals. -/
theorem accepted_iff (address : BitVec 64)
    : accepted address = true
      ↔ (0x1000 ≤ address.toNat ∧ address.toNat ≤ 0x1fff)
        ∨ (0x80000000 ≤ address.toNat ∧ address.toNat ≤ 0x8fffffff) := by
  simp only [accepted, betweenWindows, outsideWindows, Bool.and_eq_true, Bool.not_eq_eq_eq_not,
    Bool.not_true, Bool.and_eq_false_iff, Bool.or_eq_false_iff, decide_eq_false_iff_not,
    gt_iff_lt, BitVec.lt_def]
  have : (0x80000000#64).toNat = 0x80000000 := rfl
  have : (0x1fff#64).toNat = 0x1fff := rfl
  have : (0x8fffffff#64).toNat = 0x8fffffff := rfl
  have : (0x1000#64).toNat = 0x1000 := rfl
  omega

end VcmlPydrofoil
