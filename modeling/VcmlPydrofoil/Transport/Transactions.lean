import VcmlPydrofoil.Transport.Windows

/-! Transactions with and without direct memory access. The bus and the memories do not look at the
DMI caches of the initiators, and an access through a window does what its transaction would do.
-/

namespace VcmlPydrofoil

/-- The same initiator without direct memory access. -/
def TlmInitiatorSocket.withoutDmi (socket : TlmInitiatorSocket) : TlmInitiatorSocket :=
  { socket with allowDmi := false, dmiCache := none }

namespace MemorySystem

/-- The same memory system, where no initiator has direct memory access. -/
def withoutDmi (s : MemorySystem) : MemorySystem :=
  { s with initiators := fun j => (s.initiators j).withoutDmi }

variable {s : MemorySystem}

-----------------------------------------------------------------------------------------
-- The bus and the memories
-----------------------------------------------------------------------------------------

/-- Invalidations only change the cache of a socket, by induction on the ranges. -/
theorem foldl_unmapDmi (ranges : List AddressRange) (socket : TlmInitiatorSocket)
    : ∃ dmiCache, ranges.foldl .unmapDmi socket = { socket with dmiCache } := by
  induction ranges generalizing socket with
  | nil => exact ⟨socket.dmiCache, rfl⟩
  | cons r rest ih => exact ih (socket.unmapDmi r)

/-- Without DMI there is nothing to invalidate. -/
theorem foldl_unmapDmi_withoutDmi (ranges : List AddressRange) (socket : TlmInitiatorSocket)
    : ranges.foldl .unmapDmi socket.withoutDmi = socket.withoutDmi := by
  induction ranges with
  | nil => rfl
  | cons r rest ih => exact ih

theorem withoutDmi_invalidateDirectMemPtr (target : Nat) (start last : BitVec 64)
    : s.withoutDmi.invalidateDirectMemPtr target start last
      = (s.invalidateDirectMemPtr target start last).map withoutDmi := by
  unfold invalidateDirectMemPtr
  simp only [show s.withoutDmi.mappings = s.mappings from rfl]
  split
  · rfl
  · simp only [Option.map_some, withoutDmi]
    congr 2
    funext j
    obtain ⟨dmiCache, same⟩ := foldl_unmapDmi
      (s.mappings.filterMap (invalidationOf target start last)) (s.initiators j)
    rw [foldl_unmapDmi_withoutDmi, same]
    rfl

theorem withoutDmi_memoryTransport (target : Nat) (tx : TlmPayload)
    : s.withoutDmi.memoryTransport target tx
      = { s.memoryTransport target tx with
          system := (s.memoryTransport target tx).system.withoutDmi } := by
  unfold memoryTransport
  obtain ⟨command, address, size, data, allowed, status, sbi⟩ := tx
  cases command <;> rfl

theorem withoutDmi_socketTransport (target : Nat) (tx : TlmPayload)
    : s.withoutDmi.socketTransport target tx
      = (s.socketTransport target tx).map
        (fun done => { done with system := done.system.withoutDmi }) := by
  have replaced : ∀ (s : MemorySystem) socket,
      s.withoutDmi.setSocket target socket = (s.setSocket target socket).withoutDmi :=
    fun _ _ => rfl
  unfold socketTransport
  rw [show s.withoutDmi.memories target = s.memories target from rfl]
  rcases socketLookup (s.memories target).socket tx with ⟨found, socket⟩
  rcases update : socket.exmon.update
      { tx with isDmiAllowed := found.isSome && !(tx.sbi.isExcl && tx.command == .read) }
    with ⟨proceed, next, exmon⟩
  have invalidated
      : (if found.isSome && (tx.sbi.isExcl && tx.command == .read) then
          (s.withoutDmi.setSocket target socket).invalidateDirectMemPtr target tx.range.start
            tx.range.last
        else some (s.withoutDmi.setSocket target socket))
        = (if found.isSome && (tx.sbi.isExcl && tx.command == .read) then
            (s.setSocket target socket).invalidateDirectMemPtr target tx.range.start
              tx.range.last
          else some (s.setSocket target socket)).map withoutDmi := by
    rw [replaced, withoutDmi_invalidateDirectMemPtr]
    split <;> rfl
  simp only [invalidated, Option.map_map]
  congr 1
  funext reached
  simp only [Function.comp_apply, update, replaced, withoutDmi_memoryTransport]
  split <;> rfl

theorem withoutDmi_busTransport (tx : TlmPayload)
    : s.withoutDmi.busTransport tx
      = (s.busTransport tx).map
        (fun done => { done with system := done.system.withoutDmi }) := by
  unfold busTransport
  rw [show s.withoutDmi.mappings = s.mappings from rfl]
  cases lookupMapping s.mappings tx.range with
  | none => rfl
  | some m =>
      simp only [withoutDmi_socketTransport, Option.map_map]
      rfl

theorem withoutDmi_portTransport (j : Nat) (tx : TlmPayload)
    : s.withoutDmi.portTransport j tx
      = (s.portTransport j tx).map
        (fun done => { done with system := done.system.withoutDmi }) := by
  have same : ∀ socket, s.withoutDmi.setPort j socket = (s.setPort j socket).withoutDmi :=
    fun _ => rfl
  unfold portTransport
  rw [show s.withoutDmi.ports j = s.ports j from rfl]
  rcases (s.ports j).exmon.update { tx with isDmiAllowed := false } with ⟨proceed, next, exmon⟩
  simp only [same, withoutDmi_busTransport]
  split <;> rfl

theorem withoutDmi_transportDbg (tx : TlmPayload)
    : s.withoutDmi.transportDbg tx
      = { s.transportDbg tx with system := (s.transportDbg tx).system.withoutDmi } := by
  unfold transportDbg
  rw [show s.withoutDmi.mappings = s.mappings from rfl]
  cases lookupMapping s.mappings tx.range with
  | none => rfl
  | some m =>
      simp only [withoutDmi_memoryTransport]

/-- Time goes on in the same way. -/
theorem withoutDmi_advance (j delay : Nat)
    : s.withoutDmi.advance j delay = (s.advance j delay).withoutDmi := by
  unfold advance setInitiator withoutDmi
  simp only [MemorySystem.mk.injEq, and_true]
  funext i
  by_cases same : i = j
  · subst same
    simp [TlmInitiatorSocket.withoutDmi]
  · simp [same]

/-- No part of a transaction looks at the DMI caches of initiators. -/
theorem withoutDmi_send (j : Nat) (a : Access)
    : s.withoutDmi.send j a
      = (s.send j a).map (fun (response, pending, s) => (response, pending, s.withoutDmi)) := by
  unfold send
  rw [show s.withoutDmi.setup j a = s.setup j a from rfl]
  simp only [withoutDmi_transportDbg, withoutDmi_portTransport]
  split
  · rfl
  · split
    · rfl
    · cases s.portTransport j (s.setup j a) with
      | none => rfl
      | some done => simp only [Option.map_some, withoutDmi_advance]

-----------------------------------------------------------------------------------------
-- Accesses through a window
-----------------------------------------------------------------------------------------

@[simp] theorem setSocket_self (s : MemorySystem) (target : Nat)
    : s.setSocket target (s.memories target).socket = s := by
  unfold setSocket
  rw [Function.update_eq_self]

@[simp] theorem setPort_self (s : MemorySystem) (j : Nat) : s.setPort j (s.ports j) = s := by
  unfold setPort
  rw [Function.update_eq_self]

@[simp] theorem setSocket_exmon (s : MemorySystem) (target : Nat)
    : s.setSocket target
        { (s.memories target).socket with exmon := (s.memories target).socket.exmon }
      = s :=
  setSocket_self s target

@[simp] theorem setPort_exmon (s : MemorySystem) (j : Nat)
    : s.setPort j { s.ports j with exmon := (s.ports j).exmon } = s :=
  setPort_self s j

/-- The socket of a regular memory finds the window of the memory, or nothing, and stays as it is:
the only entry is at the front already.
-/
theorem socketLookup_regular {memory : GenericMemory} (regular : memory.Regular)
    (tx : TlmPayload)
    : socketLookup memory.socket tx
      = (if memory.socket.allowDmi && memory.memory.dmi.range.includes tx.range
            && memory.memory.dmi.checkAccess (tlmCommandToAccess tx.command) then
          some memory.memory.dmi
        else none, memory.socket) := by
  obtain ⟨limit, cached⟩ := regular.cache
  rcases memory with ⟨memory, readLatency, writeLatency, poison, ⟨allowDmi, dmiCache, exmon⟩⟩
  dsimp only at cached
  subst cached
  cases allowDmi with
  | false => rfl
  | true =>
      simp only [socketLookup, TlmDmiCache.lookup, List.findIdx?_cons, List.findIdx?_nil,
        Option.map_none, Bool.true_and]
      cases memory.dmi.range.includes tx.range
        && memory.dmi.checkAccess (tlmCommandToAccess tx.command) <;> rfl

/-- The range that reaches a memory through its mapping is inside the memory. -/
theorem local_range_inside {m : Mapping} {memory : GenericMemory} (fits : m.Fits memory)
    {a : Access} (includes : m.addr.includes (.ofAccess a.addr a.size) = true)
    : (AddressRange.ofAccess (a.addr - m.addr.start + m.offset) a.size).last.toNat
      ≤ memory.memory.dmi.last.toNat := by
  have ends := AddressRange.includes_iff_ends.mp includes
  have upper := local_address ends.2
  have within := fits.within
  rw [AddressRange.includesAddr_iff, AddressRange.includesAddr_iff] at ends
  rw [local_range fits]
  simp only [upper]
  omega

/-- What an access through a window leaves of the host's memory. -/
def hostAfter (host : ByteMemory) (a : Access) (pointer : BitVec 64) : ByteMemory :=
  if a.command = .write then host.store pointer.toNat a.size.toNat a.data else host

/-- What an access through a window leaves in the buffer. -/
def dataAfter (host : ByteMemory) (a : Access) (pointer : BitVec 64) : Nat :=
  if a.command = .read then host.load pointer.toNat a.size.toNat else a.data

/-- The latency of a window for a command. -/
def latencyOf (dmi : TlmDmi) (a : Access) : Nat :=
  if a.info.isDebug then 0 else if a.command = .read then dmi.readLatency else dmi.writeLatency

/-- A read inside a readable memory. -/
theorem read_inside {memory : TlmMemory} {r : AddressRange} (bound : r.last < memory.size)
    (readable : memory.dmi.isReadAllowed = true) (host : ByteMemory) (dest : Nat) (debug : Bool)
    : memory.read host r dest debug
      = (.ok, host.load (memory.dmi.ptr + r.start).toNat r.length.toNat) := by
  unfold TlmMemory.read
  rw [if_neg (by rw [ge_iff_le, BitVec.not_le]; exact bound), readable, Bool.not_true, Bool.and_false]
  rfl

/-- A write inside a memory that keeps it, or of a debugger. -/
theorem write_inside {memory : TlmMemory} {r : AddressRange} {debug : Bool}
    (bound : r.last < memory.size)
    (kept : debug = true ∨ memory.discard = false ∧ memory.dmi.isWriteAllowed = true)
    (host : ByteMemory) (src : Nat)
    : memory.write host r src debug
      = (.ok, host.store (memory.dmi.ptr + r.start).toNat r.length.toNat src) := by
  unfold TlmMemory.write
  rw [if_neg (by rw [ge_iff_le, BitVec.not_le]; exact bound)]
  rcases kept with rfl | ⟨kept, writable⟩
  · rfl
  · rw [kept, writable, Bool.not_true, Bool.and_false]
    rfl

/-- The memory serves an access inside it that its window allows. -/
theorem memoryTransport_inside {target : Nat} {a : Access} {tx : TlmPayload}
    (regular : (s.memories target).Regular) (notIgnored : a.command ≠ .ignore)
    (command : tx.command = a.command) (size : tx.size = a.size) (data : tx.data = a.data)
    (debug : tx.sbi.isDebug = a.info.isDebug)
    (inside : tx.range.last.toNat ≤ (s.memories target).memory.dmi.last.toNat)
    (allowed
      : (s.memories target).memory.dmi.checkAccess
          (tlmCommandToAccess (if a.info.isDebug then .read else a.command)) = true)
    : s.memoryTransport target tx
      = {
        tx := {
          tx with
          status := .ok
          data := dataAfter s.host a ((s.memories target).memory.dmi.ptr + tx.address)
        }
        delay := latencyOf (s.memories target).memory.dmi a
        system := {
          s with host := hostAfter s.host a ((s.memories target).memory.dmi.ptr + tx.address) }
      } := by
  have bound : tx.range.last < (s.memories target).memory.size := by
    rw [BitVec.lt_def, regular.size]
    omega
  have length : tx.range.length.toNat = a.size.toNat := by
    rw [← size]
    exact AddressRange.length_ofAccess tx.address tx.size
  have start : tx.range.start = tx.address := rfl
  unfold memoryTransport
  cases kind : a.command with
  | ignore => exact absurd kind notIgnored
  | read =>
      simp only [command, kind, read_inside bound regular.readable, length, start, debug,
        regular.readLatency]
      simp [dataAfter, hostAfter, latencyOf, kind]
  | write =>
      have kept
          : a.info.isDebug = true
            ∨ (s.memories target).memory.discard = false
              ∧ (s.memories target).memory.dmi.isWriteAllowed = true := by
        rcases debugger : a.info.isDebug with _ | _
        · right
          rw [debugger, kind] at allowed
          have writable : (s.memories target).memory.dmi.isWriteAllowed = true := allowed
          refine ⟨?_, writable⟩
          rw [Bool.eq_false_iff]
          intro discards
          rw [regular.discard discards] at writable
          cases writable
        · exact .inl rfl
      simp only [command, kind, write_inside bound kept, length, start, debug,
        regular.writeLatency, data]
      simp [dataAfter, hostAfter, latencyOf, kind]

/-- The permission of a window is that of its access. -/
theorem checkAccess_congr {first second : TlmDmi} (same : first.access = second.access)
    (rwx : VcmlAccess)
    : first.checkAccess rwx = second.checkAccess rwx := by
  cases rwx <;> simp only [TlmDmi.checkAccess, TlmDmi.isReadAllowed, TlmDmi.isWriteAllowed, same]

@[simp] theorem advance_zero (s : MemorySystem) (j : Nat) : s.advance j 0 = s := by
  unfold advance setInitiator
  rw [Nat.add_zero, Function.update_eq_self]

variable {j : Nat} {a : Access} {dmi : TlmDmi} {m : Mapping}

/-- The inner transaction of an access through a window. -/
theorem Hit.memoryTransport (hit : s.Hit j a dmi m) (wf : s.WellFormed)
    (notIgnored : a.command ≠ .ignore)
    (allowed
      : dmi.checkAccess (tlmCommandToAccess (if a.info.isDebug then .read else a.command)) = true)
    {tx : TlmPayload} (command : tx.command = a.command) (size : tx.size = a.size)
    (data : tx.data = a.data) (debug : tx.sbi.isDebug = a.info.isDebug)
    (address : tx.address = a.addr - m.addr.start + m.offset)
    : s.memoryTransport m.target tx
      = {
        tx := { tx with status := .ok, data := dataAfter s.host a (dmi.getPtr a.addr) }
        delay := latencyOf dmi a
        system := { s with host := hostAfter s.host a (dmi.getPtr a.addr) }
      } := by
  have fits := wf.fits m hit.mapped
  have regular := wf.regular m hit.mapped
  have inside : tx.range.last.toNat ≤ (s.memories m.target).memory.dmi.last.toNat := by
    rw [TlmPayload.range, address, size]
    exact local_range_inside fits hit.includes
  have pointer : (s.memories m.target).memory.dmi.ptr + tx.address = dmi.getPtr a.addr := by
    rw [hit.pointer, address, fits.offset]
    simp
  rw [checkAccess_congr hit.access] at allowed
  rw [memoryTransport_inside regular notIgnored command size data debug inside allowed, pointer]
  simp only [latencyOf, hit.readLatency, hit.writeLatency]

/-- A transaction of a debugger for an access through a window. -/
theorem Hit.transportDbg (hit : s.Hit j a dmi m) (wf : s.WellFormed)
    (notIgnored : a.command ≠ .ignore)
    (allowed
      : dmi.checkAccess (tlmCommandToAccess (if a.info.isDebug then .read else a.command)) = true)
    : s.transportDbg (s.setup j a)
      = {
        tx := {
          s.setup j a with status := .ok, data := dataAfter s.host a (dmi.getPtr a.addr) }
        delay := latencyOf dmi a
        system := { s with host := hostAfter s.host a (dmi.getPtr a.addr) }
      } := by
  unfold MemorySystem.transportDbg
  rw [show (s.setup j a).range = .ofAccess a.addr a.size from rfl,
    wf.lookup hit.mapped hit.includes]
  simp only
  rw [hit.memoryTransport wf notIgnored allowed rfl rfl rfl rfl rfl]

/-- A transaction that is not exclusive passes a monitor whose locks it does not overlap. -/
theorem update_disjoint (locks : TlmExmon) (tx : TlmPayload) (plain : tx.sbi.isExcl = false)
    (disjoint : ∀ lock ∈ locks, lock.addr.overlaps tx.range = false)
    : ∃ isDmiAllowed, locks.update tx = (true, { tx with isDmiAllowed }, locks) := by
  rw [TlmExmon.update_plain plain, TlmExmon.breakLocks_of_disjoint disjoint, ite_self]
  exact ⟨_, rfl⟩

/-- The memory's side of a transaction for an access through a window. -/
theorem Hit.socketTransport (hit : s.Hit j a dmi m) (wf : s.WellFormed)
    (notIgnored : a.command ≠ .ignore)
    (allowed
      : dmi.checkAccess (tlmCommandToAccess (if a.info.isDebug then .read else a.command)) = true)
    (tx : TlmPayload) (plain : tx.sbi.isExcl = false) (command : tx.command = a.command)
    (size : tx.size = a.size) (data : tx.data = a.data) (debug : tx.sbi.isDebug = a.info.isDebug)
    (address : tx.address = a.addr - m.addr.start + m.offset)
    : ∃ isDmiAllowed,
        s.socketTransport m.target tx
          = some {
            tx := {
              tx with
              status := .ok, data := dataAfter s.host a (dmi.getPtr a.addr), isDmiAllowed }
            delay := latencyOf dmi a
            system := { s with host := hostAfter s.host a (dmi.getPtr a.addr) }
          } := by
  unfold MemorySystem.socketTransport
  rw [socketLookup_regular (wf.regular m hit.mapped)]
  simp only [plain, Bool.false_and, Bool.and_false, Bool.not_false, Bool.and_true, if_false,
    Bool.false_eq_true, setSocket_self, Option.map_some]
  have disjoint
      : ∀ lock ∈ (s.memories m.target).socket.exmon, lock.addr.overlaps tx.range = false := by
    rw [TlmPayload.range, address, size]
    exact hit.unlocked
  obtain ⟨isDmiAllowed, update⟩ := update_disjoint (s.memories m.target).socket.exmon
    { tx with isDmiAllowed := Option.isSome _ } plain disjoint
  refine ⟨isDmiAllowed, ?_⟩
  rw [update]
  simp only [if_true, setSocket_exmon]
  rw [hit.memoryTransport wf notIgnored allowed]
  all_goals assumption

/-- A transaction for an access through a window: no monitor has a lock to break. -/
theorem Hit.portTransport (hit : s.Hit j a dmi m) (wf : s.WellFormed)
    (notIgnored : a.command ≠ .ignore)
    (allowed
      : dmi.checkAccess (tlmCommandToAccess (if a.info.isDebug then .read else a.command)) = true)
    (plain : a.info.isExcl = false)
    : ∃ isDmiAllowed,
        s.portTransport j (s.setup j a)
          = some {
            tx := {
              s.setup j a with
              status := .ok, data := dataAfter s.host a (dmi.getPtr a.addr), isDmiAllowed }
            delay := latencyOf dmi a
            system := { s with host := hostAfter s.host a (dmi.getPtr a.addr) }
          } := by
  obtain ⟨allowedAtPort, update⟩ := update_disjoint (s.ports j).exmon
    { s.setup j a with isDmiAllowed := false } plain hit.portUnlocked
  unfold MemorySystem.portTransport
  rw [update]
  simp only [if_true, setPort_exmon, busTransport]
  rw [show ({ s.setup j a with isDmiAllowed := allowedAtPort } : TlmPayload).range
    = .ofAccess a.addr a.size from rfl, wf.lookup hit.mapped hit.includes]
  simp only
  obtain ⟨isDmiAllowed, transported⟩ := hit.socketTransport wf notIgnored allowed
    { s.setup j a with
      isDmiAllowed := allowedAtPort, address := a.addr - m.addr.start + m.offset }
    plain rfl rfl rfl rfl rfl
  exact ⟨isDmiAllowed, by rw [show (s.setup j a).address = a.addr from rfl, transported]; rfl⟩

/-- An access through a window gets the response of its transaction, which takes as long and leaves
the same memory.
-/
theorem Hit.send (hit : s.Hit j a dmi m) (wf : s.WellFormed) (notIgnored : a.command ≠ .ignore)
    (allowed
      : dmi.checkAccess (tlmCommandToAccess (if a.info.isDebug then .read else a.command)) = true)
    (plain : a.info.isExcl = false) (nonempty : a.size ≠ 0)
    : ∃ pending,
        s.send j a
          = some (
            { status := .ok, bytes := a.size, data := dataAfter s.host a (dmi.getPtr a.addr) },
            pending,
            { s with host := hostAfter s.host a (dmi.getPtr a.addr) }.advance j (latencyOf dmi a)) := by
  unfold MemorySystem.send
  rw [if_neg nonempty]
  rcases debug : a.info.isDebug with _ | _
  · obtain ⟨isDmiAllowed, transported⟩ := hit.portTransport wf notIgnored allowed plain
    rw [transported]
    simp only [if_false, Bool.false_eq_true, Option.map_some, respond, plain, debug]
    exact ⟨_, rfl⟩
  · rw [hit.transportDbg wf notIgnored allowed]
    refine ⟨none, ?_⟩
    have atOnce : latencyOf dmi a = 0 := by rw [latencyOf, debug]; rfl
    simp only [if_true, respond, plain, debug, atOnce, advance_zero]
    rfl

/-- The copy through a window. -/
theorem copyDmi_eq (s : MemorySystem) (notIgnored : a.command ≠ .ignore)
    : s.copyDmi j a dmi
      = (dataAfter s.host a (dmi.getPtr a.addr),
        { s with host := hostAfter s.host a (dmi.getPtr a.addr) }.advance j (latencyOf dmi a)) := by
  unfold copyDmi dataAfter hostAfter latencyOf
  cases kind : a.command with
  | ignore => exact absurd kind notIgnored
  | read => rfl
  | write => rfl

-----------------------------------------------------------------------------------------
-- Effects
-----------------------------------------------------------------------------------------

/-- A transaction in a memory only changes the host's memory. -/
theorem memoryTransport_system (s : MemorySystem) (target : Nat) (tx : TlmPayload)
    : ∃ host, (s.memoryTransport target tx).system = { s with host } := by
  unfold memoryTransport
  cases tx.command with
  | read => exact ⟨s.host, rfl⟩
  | write => exact ⟨_, rfl⟩
  | ignore => exact ⟨s.host, rfl⟩

/-- The ranges that an invalidation request of a memory has at the initiators. -/
def invalidations (s : MemorySystem) (target : Nat) (r : AddressRange) : List AddressRange :=
  s.mappings.filterMap (invalidationOf target r.start r.last)

/-- What the initiators have left after an invalidation request. -/
def invalidatedInitiators (s : MemorySystem) (target : Nat) (r : AddressRange)
    : Nat → TlmInitiatorSocket :=
  fun i => (s.invalidations target r).foldl .unmapDmi (s.initiators i)

theorem invalidateDirectMemPtr_some {target : Nat} {r : AddressRange} {next : MemorySystem}
    (invalidated : s.invalidateDirectMemPtr target r.start r.last = some next)
    : next = { s with initiators := s.invalidatedInitiators target r } := by
  unfold invalidateDirectMemPtr at invalidated
  simp only at invalidated
  split at invalidated
  · cases invalidated
  · exact (Option.some.inj invalidated).symm

/-- The socket of a memory updates its monitor, and invalidates windows at an exclusive read. -/
theorem socketTransport_system {target : Nat} {tx : TlmPayload} {done : Transported}
    (regular : (s.memories target).Regular)
    (transported : s.socketTransport target tx = some done)
    : ∃ host,
        done.system
        = {
          s.setSocket target {
            (s.memories target).socket with
            exmon := ((s.memories target).socket.exmon.update tx).2.2 } with
          host
          initiators :=
            if (socketLookup (s.memories target).socket tx).1.isSome
              && (tx.sbi.isExcl && tx.command == .read) then
              s.invalidatedInitiators target tx.range
            else s.initiators
        } := by
  have kept : (socketLookup (s.memories target).socket tx).2 = (s.memories target).socket := by
    rw [socketLookup_regular regular]
  unfold socketTransport at transported
  revert kept transported
  rcases socketLookup (s.memories target).socket tx with ⟨found, socket⟩
  intro transported kept
  obtain rfl : socket = (s.memories target).socket := kept
  simp only [setSocket_self] at transported ⊢
  obtain ⟨reached, invalidated, rfl⟩ := Option.map_eq_some_iff.mp transported
  have reachedEq
      : reached = {
          s with
          initiators :=
            if found.isSome && (tx.sbi.isExcl && tx.command == .read) then
              s.invalidatedInitiators target tx.range
            else s.initiators } := by
    split at invalidated
    · next holds => rw [invalidateDirectMemPtr_some invalidated, if_pos holds]
    · next fails => rw [← Option.some.inj invalidated, if_neg fails]
  subst reachedEq
  have monitor
      : ((s.memories target).socket.exmon.update
          { tx with isDmiAllowed := found.isSome && !(tx.sbi.isExcl && tx.command == .read) }).2.2
        = ((s.memories target).socket.exmon.update tx).2.2 := rfl
  rw [← monitor]
  rcases (s.memories target).socket.exmon.update
      { tx with isDmiAllowed := found.isSome && !(tx.sbi.isExcl && tx.command == .read) }
    with ⟨proceed, next, exmon⟩
  simp only
  split
  · exact memoryTransport_system _ target next
  · exact ⟨s.host, rfl⟩

end MemorySystem

end VcmlPydrofoil
