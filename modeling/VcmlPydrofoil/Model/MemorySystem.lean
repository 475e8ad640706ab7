import VcmlPydrofoil.Library.ByteMemory
import VcmlPydrofoil.Library.Transition
import VcmlPydrofoil.Model.ExclusiveMonitor

/-! The memory system: initiator sockets with their DMI caches, the bus, and memories behind it, as
`tlm_sockets.cpp`, `bus.cpp`, `peripheral.cpp` and `tlm_memory_posix.cpp` make transactions pass.
The target sockets of the bus are indexed by the initiator bound to them. Clocks run and no reset
is asserted, so that a transaction reaches its memory without a wait.
-/

namespace VcmlPydrofoil

/-- `tlm_memory`: the window it is, `m_size` and `m_discard`. -/
structure TlmMemory where
  dmi : TlmDmi
  size : BitVec 64
  discard : Bool := false
  deriving DecidableEq

namespace TlmMemory

/-- `tlm_memory::init` for a mapping at `base`. The alignments are exponents. -/
def init (base size : BitVec 64) (align hostPage : Nat) : TlmMemory :=
  let extra : BitVec 64 := if align > hostPage then BitVec.ofNat 64 (2 ^ align - 1) else 0
  {
    dmi := {
      ptr := (base + extra) &&& ~~~extra
      start := 0, last := size - 1, access := .readWrite
    }
    size := size + extra
  }

/-- `tlm_memory::read` into a buffer. -/
def read (memory : TlmMemory) (host : ByteMemory) (addr : AddressRange) (dest : Nat)
    (debug : Bool)
    : TlmResponseStatus × Nat :=
  if addr.last ≥ memory.size then (.addressError, dest)
  else if !debug && !memory.dmi.isReadAllowed then (.commandError, dest)
  else (.ok, host.load (memory.dmi.ptr + addr.start).toNat addr.length.toNat)

/-- `tlm_memory::write` from a buffer. -/
def write (memory : TlmMemory) (host : ByteMemory) (addr : AddressRange) (src : Nat)
    (debug : Bool)
    : TlmResponseStatus × ByteMemory :=
  if addr.last ≥ memory.size then (.addressError, host)
  else if !debug && memory.discard then (.ok, host)
  else if !debug && !memory.dmi.isWriteAllowed then (.commandError, host)
  else (.ok, host.store (memory.dmi.ptr + addr.start).toNat addr.length.toNat src)

end TlmMemory

/-- `tlm_target_socket`. -/
structure TlmTargetSocket where
  allowDmi : Bool := true
  dmiCache : Option TlmDmiCache := none
  exmon : TlmExmon := []
  deriving DecidableEq

/-- `generic::memory` with its socket `in`. The latencies are in units of `sc_time`. -/
structure GenericMemory where
  memory : TlmMemory
  readLatency : Nat := 0
  writeLatency : Nat := 0
  poison : BitVec 8 := 0
  socket : TlmTargetSocket
  deriving DecidableEq

/-- The constructor of `generic::memory` without latencies; `none` is one of its errors. The
window goes to the cache of the socket.
-/
def GenericMemory.make (base size : BitVec 64) (readonly discardWrites : Bool)
    (align hostPage : Nat) (poison : BitVec 8)
    : Option GenericMemory :=
  if size = 0 || align > 30 then none
  else
    let initial := TlmMemory.init base size align hostPage
    let access := if readonly then .read else .readWrite
    let memory := { initial with dmi := { initial.dmi with access }, discard := discardWrites }
    some {
      memory, poison
      socket := { dmiCache := some (TlmDmiCache.insert {} memory.dmi) }
    }

/-- `tlm_initiator_socket`: `m_sbi` holds its `cpuid`. `time` is the local time stamp of the thread
that uses it, which `sync` does not change.
-/
structure TlmInitiatorSocket where
  allowDmi : Bool := true
  cpuid : BitVec 64 := 0
  dmiCache : Option TlmDmiCache := none
  time : Nat := 0
  deriving DecidableEq

/-- `tlm_initiator_socket::unmap_dmi`. -/
def TlmInitiatorSocket.unmapDmi (socket : TlmInitiatorSocket) (r : AddressRange)
    : TlmInitiatorSocket :=
  { socket with dmiCache := socket.dmiCache.map (fun cache => (cache.invalidate r).2) }

/-- `tlm_initiator_socket::map_dmi`. -/
def TlmInitiatorSocket.mapDmi (socket : TlmInitiatorSocket) (dmi : TlmDmi) : TlmInitiatorSocket :=
  { socket with dmiCache := socket.dmiCache.map (fun cache => cache.insert dmi) }

/-- The initiators, the bus with its sockets `in`, the memories at its sockets `out`, and the
memory of the host.
-/
structure MemorySystem where
  initiators : Nat → TlmInitiatorSocket
  ports : Nat → TlmTargetSocket
  mappings : List Mapping
  memories : Nat → GenericMemory
  host : ByteMemory

/-- What a transaction leaves: the payload, the time it took, and the memory system. -/
structure Transported where
  tx : TlmPayload
  delay : Nat
  system : MemorySystem

namespace MemorySystem

-----------------------------------------------------------------------------------------
-- Updates
-----------------------------------------------------------------------------------------

/-- Replace one initiator. -/
def setInitiator (s : MemorySystem) (j : Nat) (socket : TlmInitiatorSocket) : MemorySystem :=
  { s with initiators := Function.update s.initiators j socket }

/-- Replace one target socket of the bus. -/
def setPort (s : MemorySystem) (j : Nat) (socket : TlmTargetSocket) : MemorySystem :=
  { s with ports := Function.update s.ports j socket }

/-- Replace the socket of one memory. -/
def setSocket (s : MemorySystem) (target : Nat) (socket : TlmTargetSocket) : MemorySystem :=
  { s with memories := Function.update s.memories target { s.memories target with socket } }

-----------------------------------------------------------------------------------------
-- Invalidation
-----------------------------------------------------------------------------------------

/-- The range that `bus::invalidate_direct_mem_ptr` passes on for one mapping. -/
def invalidationOf (target : Nat) (start last : BitVec 64) (m : Mapping) : Option AddressRange :=
  if m.target ≠ target then none
  else if last < m.offset then none
  else
    let s := if start > m.offset then start - m.offset else 0
    let e := if last ≠ BitVec.allOnes 64 then last - m.offset else last
    if s ≥ m.addr.length then none
    else
      let e := if e ≥ m.addr.length then m.addr.length - 1 else e
      some { start := s + m.addr.start, last := e + m.addr.start }

/-- `invalidate_direct_mem_ptr` of the socket `in` of a memory: through the bus to all initiators.
`none` is the error "invalid dmi invalidation request".
-/
def invalidateDirectMemPtr (s : MemorySystem) (target : Nat) (start last : BitVec 64)
    : Option MemorySystem :=
  let ranges := s.mappings.filterMap (invalidationOf target start last)
  if start > last || ranges.any (fun r => r.start > r.last) then none
  else some { s with initiators := fun j => ranges.foldl .unmapDmi (s.initiators j) }

-----------------------------------------------------------------------------------------
-- Transactions
-----------------------------------------------------------------------------------------

/-- `peripheral::transport` and `peripheral::receive` of a memory, which has no registers. -/
def memoryTransport (s : MemorySystem) (target : Nat) (tx : TlmPayload) : Transported :=
  let m := s.memories target
  let delay :=
    if tx.sbi.isDebug then 0
    else if tx.command = .read then m.readLatency
    else m.writeLatency
  match tx.command with
  | .read =>
      let (status, data) := m.memory.read s.host tx.range tx.data tx.sbi.isDebug
      { tx := { tx with status, data }, delay, system := s }
  | .write =>
      let (status, host) := m.memory.write s.host tx.range tx.data tx.sbi.isDebug
      { tx := { tx with status }, delay, system := { s with host } }
  | .ignore => { tx := { tx with status := .ok }, delay, system := s }

/-- The lookup in the cache of a target socket, which a socket that does not allow DMI skips. -/
def socketLookup (socket : TlmTargetSocket) (tx : TlmPayload)
    : Option TlmDmi × TlmTargetSocket :=
  match socket.allowDmi, socket.dmiCache with
  | true, some cache =>
      let (found, cache) := cache.lookup tx.range (tlmCommandToAccess tx.command)
      (found, { socket with dmiCache := some cache })
  | _, _ => (none, socket)

/-- `tlm_target_socket::b_transport` of the socket `in` of a memory. -/
def socketTransport (s : MemorySystem) (target : Nat) (tx : TlmPayload) : Option Transported :=
  let (found, socket) := socketLookup (s.memories target).socket tx
  let s := s.setSocket target socket
  let hit := found.isSome
  let exclusiveRead := tx.sbi.isExcl && tx.command == .read
  let invalidated :=
    if hit && exclusiveRead then
      s.invalidateDirectMemPtr target tx.range.start tx.range.last
    else some s
  invalidated.map fun s =>
    let (proceed, tx, exmon) :=
      socket.exmon.update { tx with isDmiAllowed := hit && !exclusiveRead }
    let s := s.setSocket target { socket with exmon }
    if proceed then s.memoryTransport target tx
    else { tx := { tx with status := .ok }, delay := 0, system := s }

/-- `bus::b_transport` of a bus that is not lenient. The address is put back afterwards. -/
def busTransport (s : MemorySystem) (tx : TlmPayload) : Option Transported :=
  match lookupMapping s.mappings tx.range with
  | none => some { tx := { tx with status := .addressError }, delay := 0, system := s }
  | some m =>
      let inner := { tx with address := tx.address - m.addr.start + m.offset }
      (s.socketTransport m.target inner).map fun done =>
        { done with tx := { done.tx with address := tx.address } }

/-- `tlm_target_socket::b_transport` of a socket `in` of the bus, which has no DMI cache. -/
def portTransport (s : MemorySystem) (j : Nat) (tx : TlmPayload) : Option Transported :=
  let (proceed, tx, exmon) := (s.ports j).exmon.update { tx with isDmiAllowed := false }
  let s := s.setPort j { s.ports j with exmon }
  if proceed then s.busTransport tx
  else some { tx := { tx with status := .ok }, delay := 0, system := s }

/-- `transport_dbg` through the bus. -/
def transportDbg (s : MemorySystem) (tx : TlmPayload) : Transported :=
  match lookupMapping s.mappings tx.range with
  | none => { tx := { tx with status := .addressError }, delay := 0, system := s }
  | some m =>
      let inner := { tx with address := tx.address - m.addr.start + m.offset }
      let done := s.memoryTransport m.target inner
      { done with tx := { done.tx with address := tx.address } }

-----------------------------------------------------------------------------------------
-- Direct memory access
-----------------------------------------------------------------------------------------

/-- `tlm_target_socket::get_dmi_ptr` of the socket `in` of a memory; no window is `false`. -/
def socketGetDmiPtr (s : MemorySystem) (target : Nat) (tx : TlmPayload)
    : Option TlmDmi × MemorySystem :=
  let (found, socket) := socketLookup (s.memories target).socket tx
  (found.bind (socket.exmon.overrideDmi tx), s.setSocket target socket)

/-- The translation in `bus::get_direct_mem_ptr`. -/
def translateDmi (m : Mapping) (dmi : TlmDmi) : TlmDmi :=
  let s := dmi.start + m.addr.start - m.offset
  let e := dmi.last + m.addr.start - m.offset
  {
    dmi with
    start := if s < m.addr.start then m.addr.start else s
    last := if e > m.addr.last then m.addr.last else e
  }

/-- `bus::get_direct_mem_ptr`. -/
def busGetDirectMemPtr (s : MemorySystem) (tx : TlmPayload) : Option TlmDmi × MemorySystem :=
  match lookupMapping s.mappings tx.range with
  | none => (none, s)
  | some m =>
      let inner := { tx with address := tx.address - m.addr.start + m.offset }
      let (found, s) := s.socketGetDmiPtr m.target inner
      (found.map (translateDmi m), s)

/-- `tlm_target_socket::get_dmi_ptr` of a socket `in` of the bus. -/
def portGetDmiPtr (s : MemorySystem) (j : Nat) (tx : TlmPayload)
    : Option TlmDmi × MemorySystem :=
  if (s.ports j).allowDmi then
    let (found, s) := s.busGetDirectMemPtr tx
    (found.bind ((s.ports j).exmon.overrideDmi tx), s)
  else (none, s)

/-- The last part of `tlm_initiator_socket::send`: ask for a window and keep it. -/
def requestDmi (s : MemorySystem) (j : Nat) (tx : TlmPayload) : MemorySystem :=
  if (s.initiators j).allowDmi then
    match s.portGetDmiPtr j tx with
    | (some dmi, s) => s.setInitiator j ((s.initiators j).mapDmi dmi)
    | (none, s) => s
  else s

-----------------------------------------------------------------------------------------
-- Accesses
-----------------------------------------------------------------------------------------

/-- What `tlm_initiator_socket::access` is called with. -/
structure Access where
  command : TlmCommand
  addr : BitVec 64
  data : Nat
  size : BitVec 32
  info : TlmSbi := {}
  deriving DecidableEq

/-- What `tlm_initiator_socket::access` returns, and the buffer. -/
structure Response where
  status : TlmResponseStatus
  bytes : BitVec 32
  data : Nat
  deriving DecidableEq

/-- The time of the initiator's thread goes on. -/
def advance (s : MemorySystem) (j : Nat) (delay : Nat) : MemorySystem :=
  s.setInitiator j { s.initiators j with time := (s.initiators j).time + delay }

/-- The copy of `tlm_initiator_socket::access_dmi` through a window. -/
def copyDmi (s : MemorySystem) (j : Nat) (a : Access) (dmi : TlmDmi) : Nat × MemorySystem :=
  let at_host := (dmi.getPtr a.addr).toNat
  match a.command with
  | .read =>
      (s.host.load at_host a.size.toNat, s.advance j (if a.info.isDebug then 0 else dmi.readLatency))
  | .write =>
      let host := s.host.store at_host a.size.toNat a.data
      (a.data, { s with host }.advance j (if a.info.isDebug then 0 else dmi.writeLatency))
  | .ignore => (a.data, s)

/-- `tlm_initiator_socket::access_dmi` without `SBI_SYNC`: no data is the incomplete response, and
`none` is the error "invalid range".
-/
def accessDmi (s : MemorySystem) (j : Nat) (a : Access) : Option (Option Nat × MemorySystem) :=
  if a.info.isNodmi || a.info.isExcl then some (none, s)
  else
    (AddressRange.make a.addr (a.addr + a.size.setWidth 64 - 1)).map fun r =>
      let elevate := if a.info.isDebug then .read else a.command
      let socket := s.initiators j
      let (found, cache) := (socket.dmiCache.getD {}).lookup r (tlmCommandToAccess elevate)
      let s := s.setInitiator j { socket with dmiCache := some cache }
      match found with
      | some dmi =>
          let (data, s) := s.copyDmi j a dmi
          (some data, s)
      | none => (none, s)

/-- `tx_setup`, and `tx_set_sbi` with the socket's `m_sbi`. -/
def setup (s : MemorySystem) (j : Nat) (a : Access) : TlmPayload :=
  {
    command := a.command, address := a.addr, size := a.size, data := a.data
    sbi := { a.info with cpuid := (s.initiators j).cpuid ||| a.info.cpuid }
  }

/-- What `access` returns after `send`. -/
def respond (a : Access) (tx : TlmPayload) : Response :=
  {
    status := if tx.status = .incomplete && a.info.isDebug then .ok else tx.status
    bytes := if tx.status = .ok && (!a.info.isExcl || tx.sbi.isExcl) then a.size else 0
    data := tx.data
  }

/-- `tlm_initiator_socket::send` up to the last part, and the response of `access`. -/
def send (s : MemorySystem) (j : Nat) (a : Access)
    : Option (Response × Option TlmPayload × MemorySystem) :=
  let tx := s.setup j a
  if a.size = 0 then some (respond a { tx with status := .burstError }, none, s)
  else if a.info.isDebug then
    let done := s.transportDbg tx
    some (respond a done.tx, none, done.system)
  else
    (s.portTransport j tx).map fun done =>
      (respond a done.tx, if done.tx.isDmiAllowed then some done.tx else none,
        done.system.advance j done.delay)

/-- `tlm_initiator_socket::access` up to the last part of `send`: the response, and the transaction
with which `send` then asks for a window.
-/
def beginAccess (s : MemorySystem) (j : Nat) (a : Access)
    : Option (Response × Option TlmPayload × MemorySystem) :=
  if a.command ≠ .ignore && (s.initiators j).allowDmi then
    match s.accessDmi j a with
    | none => none
    | some (some data, s) => some ({ status := .ok, bytes := a.size, data }, none, s)
    | some (none, s) => s.send j a
  else s.send j a

/-- `tlm_initiator_socket::access`, where nothing happens before the last part of `send`. -/
def access (s : MemorySystem) (j : Nat) (a : Access) : Option (Response × MemorySystem) :=
  (s.beginAccess j a).map fun (response, pending, s) =>
    match pending with
    | some tx => (response, s.requestDmi j tx)
    | none => (response, s)

/-- The loop of `tlm_target_socket::invalidate_dmi` of the socket `in` of a memory. -/
def invalidateAll (target : Nat) (entries : List TlmDmi) (s : MemorySystem)
    : Option MemorySystem :=
  entries.foldlM (fun s dmi => s.invalidateDirectMemPtr target dmi.start dmi.last) s

/-- `component::do_reset` of a memory: `invalidate_dmi` of its socket, and `memory::reset` without
images.
-/
def reset (s : MemorySystem) (target : Nat) : Option MemorySystem :=
  let m := s.memories target
  let entries := (m.socket.dmiCache.map (·.entries)).getD []
  (invalidateAll target entries s).map fun s =>
    if m.poison > 0 then
      let start := m.memory.dmi.ptr.toNat
      let size := m.memory.dmi.range.length.toNat
      { s with host := fun a => if start ≤ a ∧ a < start + size then m.poison else s.host a }
    else s

/-- What happens to the memory system: an access of an initiator, its request for a window, which
other calls may precede since `send` can wait, and the reset of a memory.
-/
inductive Call where
  | access (initiator : Nat) (a : Access)
  | requestDmi (initiator : Nat) (tx : TlmPayload)
  | reset (target : Nat)
  deriving DecidableEq

/-- One call; only an access has a response. -/
def perform (s : MemorySystem) : Call → Option (Option Response × MemorySystem)
  | .access j a => (s.beginAccess j a).map fun (response, _, s) => (some response, s)
  | .requestDmi j tx => some (none, s.requestDmi j tx)
  | .reset target => (s.reset target).map fun s => (none, s)

/-- The runs of memory systems, by their calls with what these return. -/
def calls : Transition.System MemorySystem (Call × Option Response) where
  step s
    | (call, response) =>
        (s.perform call).bind fun (returned, s) => if returned = response then some s else none

-----------------------------------------------------------------------------------------
-- The system
-----------------------------------------------------------------------------------------

/-- Where the host maps the two memories of `system`, and the exponent of its page size. -/
structure HostBlocks where
  sram : BitVec 64
  bram : BitVec 64
  page : Nat
  deriving DecidableEq

/-- The bus and the memories that the constructor of `system` makes and binds; `none` is an error.
The memories have the lengths of the two ranges, and none of their other properties is set.
-/
def ofMap (map : MemoryMap) (blocks : HostBlocks) (host : ByteMemory) : Option MemorySystem :=
  map.mappings.bind fun mappings =>
    (GenericMemory.make blocks.sram map.ram.length false false 0 blocks.page 0).bind fun m_ram =>
      (GenericMemory.make blocks.bram map.bram.length false false 0 blocks.page 0).map fun m_bram =>
        {
          initiators := fun _ => {}, ports := fun _ => {}, mappings
          memories := fun target => if target = 0 then m_ram else m_bram
          host
        }

end MemorySystem

end VcmlPydrofoil
