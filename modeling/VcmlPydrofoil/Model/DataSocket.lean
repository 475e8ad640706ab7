import VcmlPydrofoil.Model.MemoryCallbacks
import VcmlPydrofoil.Model.MemorySystem

/-! The socket `data` of the core in the memory system: the bus that the loop of
`PydrofoilCore::simulate` calls.
-/

namespace VcmlPydrofoil

namespace MemorySystem

/-- `tlm_initiator_socket::read` with `SBI_NONE`, into a doubleword. -/
def Access.ofRead (addr : BitVec 64) (size : BitVec 32) (word : BitVec 64) : Access :=
  { command := .read, addr, size, data := word.toNat % 256 ^ size.toNat }

/-- `tlm_initiator_socket::write` with `SBI_NONE`, from a doubleword. -/
def Access.ofWrite (addr : BitVec 64) (size : BitVec 32) (value : BitVec 64) : Access :=
  { command := .write, addr, size, data := value.toNat % 256 ^ size.toNat }

/-- A doubleword whose first `size` bytes are those of the buffer. -/
def overlay (word : BitVec 64) (size : BitVec 32) (data : Nat) : BitVec 64 :=
  BitVec.ofNat 64 (word.toNat / 256 ^ size.toNat * 256 ^ size.toNat + data)

/-- `data.read` and `data.write` of the initiator `j`. An access that is an error of VCML, for which
the exception is a step of its own, leaves the memory system alone.
-/
def dataBus (j : Nat) : Bus MemorySystem where
  read s addr size word :=
    match s.access j (.ofRead addr size word) with
    | some (response, s) => (response.status, overlay word size response.data, s)
    | none => (.genericError, word, s)
  write s addr size value :=
    match s.access j (.ofWrite addr size value) with
    | some (response, s) => (response.status, s)
    | none => (.genericError, s)

end MemorySystem

end VcmlPydrofoil
