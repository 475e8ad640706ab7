import Mathlib.Data.List.Pairwise
import VcmlPydrofoil.Model.MemorySystem
import VcmlPydrofoil.Transport.ExclusiveMonitor

/-! The windows that a memory system may have given away: which bytes they reach, and that they keep
off every lock. A window that a lookup finds leads to the bytes that a transaction would reach.
-/

namespace VcmlPydrofoil

-----------------------------------------------------------------------------------------
-- Addresses
-----------------------------------------------------------------------------------------

namespace AddressRange

theorem includes_iff_ends {range other : AddressRange}
    : range.includes other = true
      ↔ range.includesAddr other.start = true ∧ range.includesAddr other.last = true := by
  rw [includes, Bool.and_eq_true]

/-- A range that includes the ends of an ordered range includes what is between them. -/
theorem includesAddr_of_includes {range other : AddressRange} {addr : BitVec 64}
    (includes : range.includes other = true) (inside : other.includesAddr addr = true)
    : range.includesAddr addr = true := by
  obtain ⟨first, last⟩ := includes_iff_ends.mp includes
  rw [includesAddr_iff] at *
  omega

/-- Two ranges with a common address overlap. -/
theorem overlaps_of_common {range other : AddressRange} {addr : BitVec 64}
    (inRange : range.includesAddr addr = true) (inOther : other.includesAddr addr = true)
    : range.overlaps other = true := by
  rw [includesAddr_iff] at inRange inOther
  rw [overlaps_iff]
  omega

/-- Ordered ranges that overlap have a common address. -/
theorem common_of_overlaps {range other : AddressRange}
    (ordered : range.start.toNat ≤ range.last.toNat)
    (otherOrdered : other.start.toNat ≤ other.last.toNat) (overlaps : range.overlaps other = true)
    : ∃ addr, range.includesAddr addr = true ∧ other.includesAddr addr = true := by
  rw [overlaps_iff] at overlaps
  by_cases first : range.start.toNat ≤ other.start.toNat
  · refine ⟨other.start, ?_, ?_⟩ <;> rw [includesAddr_iff] <;> omega
  · refine ⟨range.start, ?_, ?_⟩ <;> rw [includesAddr_iff] <;> omega

/-- The length of the range of an access. -/
theorem length_ofAccess (address : BitVec 64) (size : BitVec 32)
    : (ofAccess address size).length.toNat = size.toNat := by
  have same : (ofAccess address size).length = size.setWidth 64 := by
    simp only [length, ofAccess]
    abel
  rw [same, BitVec.toNat_setWidth, Nat.mod_eq_of_lt]
  have := size.isLt
  omega

end AddressRange

-----------------------------------------------------------------------------------------
-- Well-formed memory systems
-----------------------------------------------------------------------------------------

/-- A memory as its constructor makes it: the cache of its socket holds the window of the memory,
which transactions and direct accesses may use alike. That a memory which discards writes grants
no write access is up to its configuration: it is so when the memory is read-only as well.
-/
structure GenericMemory.Regular (memory : GenericMemory) : Prop where
  start : memory.memory.dmi.start = 0
  size : memory.memory.size.toNat = memory.memory.dmi.last.toNat + 1
  cache : ∃ limit, memory.socket.dmiCache = some { limit, entries := [memory.memory.dmi] }
  readable : memory.memory.dmi.isReadAllowed = true
  discard : memory.memory.discard = true → memory.memory.dmi.isWriteAllowed = false
  readLatency : memory.readLatency = memory.memory.dmi.readLatency
  writeLatency : memory.writeLatency = memory.memory.dmi.writeLatency

/-- A mapping without an offset whose range lies in its memory. -/
structure Mapping.Fits (m : Mapping) (memory : GenericMemory) : Prop where
  offset : m.offset = 0
  ordered : m.addr.start.toNat ≤ m.addr.last.toNat
  within : m.addr.last.toNat ≤ m.addr.start.toNat + memory.memory.dmi.last.toNat
  below : m.addr.start.toNat + memory.memory.dmi.last.toNat + 1 < 2 ^ 64

namespace MemorySystem

/-- The mappings keep apart and fit their memories. -/
structure WellFormed (s : MemorySystem) : Prop where
  apart : s.mappings.Pairwise (fun first second => first.addr.overlaps second.addr = false)
  fits : ∀ m ∈ s.mappings, m.Fits (s.memories m.target)
  regular : ∀ m ∈ s.mappings, (s.memories m.target).Regular

/-- The bytes of an access are consecutive, and each mapping has all of them or none. -/
structure Contiguous (mappings : List Mapping) (a : Access) : Prop where
  nonempty : a.size ≠ 0
  ordered
    : (AddressRange.ofAccess a.addr a.size).start.toNat
      ≤ (AddressRange.ofAccess a.addr a.size).last.toNat
  undivided
    : ∀ m ∈ mappings,
        m.addr.overlaps (.ofAccess a.addr a.size) = true
        → m.addr.includes (.ofAccess a.addr a.size) = true

instance (mappings : List Mapping) (a : Access) : Decidable (Contiguous mappings a) :=
  decidable_of_iff
    (a.size ≠ 0
      ∧ (AddressRange.ofAccess a.addr a.size).start.toNat
        ≤ (AddressRange.ofAccess a.addr a.size).last.toNat
      ∧ ∀ m ∈ mappings,
          m.addr.overlaps (.ofAccess a.addr a.size) = true
          → m.addr.includes (.ofAccess a.addr a.size) = true)
    ⟨fun holds => ⟨holds.1, holds.2.1, holds.2.2⟩,
      fun contiguous => ⟨contiguous.nonempty, contiguous.ordered, contiguous.undivided⟩⟩

/-- What a window of an initiator may grant: a byte of a mapping, where and how its memory keeps
it, that neither the monitor of the memory nor that of the initiator's port has locked.
-/
structure Grants (s : MemorySystem) (j : Nat) (grant : DmiGrant) (m : Mapping) : Prop where
  mapped : m ∈ s.mappings
  inside : m.addr.includesAddr grant.address = true
  allowed : (s.memories m.target).socket.allowDmi = true
  pointer
    : grant.pointer = (s.memories m.target).memory.dmi.ptr + (grant.address - m.addr.start)
  access : grant.access = (s.memories m.target).memory.dmi.access
  readLatency : grant.readLatency = (s.memories m.target).memory.dmi.readLatency
  writeLatency : grant.writeLatency = (s.memories m.target).memory.dmi.writeLatency
  unlocked
    : ∀ lock ∈ (s.memories m.target).socket.exmon,
        lock.addr.includesAddr (grant.address - m.addr.start) = false
  portUnlocked : ∀ lock ∈ (s.ports j).exmon, lock.addr.includesAddr grant.address = false

/-- All that windows of an initiator may grant. -/
def grantable (s : MemorySystem) (j : Nat) : Set DmiGrant := {grant | ∃ m, s.Grants j grant m}

/-- The windows of all initiators grant only what they may, and the locks are proper ranges. -/
structure Invariant (s : MemorySystem) : Prop where
  wellFormed : s.WellFormed
  windows
    : ∀ j cache,
        (s.initiators j).dmiCache = some cache
        → cache.Invariant ∧ cache.grants ⊆ s.grantable j
  portLocks : ∀ j, ∀ lock ∈ (s.ports j).exmon, lock.addr.start.toNat ≤ lock.addr.last.toNat
  memoryLocks
    : ∀ target, ∀ lock ∈ (s.memories target).socket.exmon,
        lock.addr.start.toNat ≤ lock.addr.last.toNat

variable {s : MemorySystem}

/-- Mappings with a common address are the same. -/
theorem WellFormed.unique (wf : s.WellFormed) {first second : Mapping} {addr : BitVec 64}
    (firstMem : first ∈ s.mappings) (secondMem : second ∈ s.mappings)
    (inFirst : first.addr.includesAddr addr = true)
    (inSecond : second.addr.includesAddr addr = true)
    : first = second := by
  by_contra different
  have symm : Std.Symm (fun a b : Mapping => a.addr.overlaps b.addr = false) := by
    constructor
    intro a b apart
    rw [Bool.eq_false_iff, ne_eq, AddressRange.overlaps_iff] at apart ⊢
    omega
  have apart := wf.apart.forall firstMem secondMem different
  rw [AddressRange.overlaps_of_common inFirst inSecond] at apart
  cases apart

/-- The bus finds the mapping that includes a range. -/
theorem WellFormed.lookup (wf : s.WellFormed) {m : Mapping} {r : AddressRange}
    (mem : m ∈ s.mappings) (includes : m.addr.includes r = true)
    : lookupMapping s.mappings r = some m := by
  cases found : lookupMapping s.mappings r with
  | none =>
      have fails := List.find?_eq_none.mp found m mem
      exact absurd includes fails
  | some other =>
      have otherIncludes := List.find?_some found
      have otherMem := List.mem_of_find?_eq_some found
      rw [wf.unique otherMem mem (AddressRange.includes_iff_ends.mp otherIncludes).1
        (AddressRange.includes_iff_ends.mp includes).1]

/-- The bus moves a range in a mapping to the start of its memory. -/
theorem local_range {m : Mapping} {memory : GenericMemory} (fits : m.Fits memory)
    (addr : BitVec 64) (size : BitVec 32)
    : AddressRange.ofAccess (addr - m.addr.start + m.offset) size
      = {
        start := (AddressRange.ofAccess addr size).start - m.addr.start
        last := (AddressRange.ofAccess addr size).last - m.addr.start
      } := by
  rw [fits.offset]
  simp only [AddressRange.ofAccess]
  congr 1 <;> abel

/-- An address in a mapping is moved down by the start of the mapping. -/
theorem local_address {m : Mapping} {addr : BitVec 64} (inside : m.addr.includesAddr addr = true)
    : (addr - m.addr.start).toNat = addr.toNat - m.addr.start.toNat := by
  rw [AddressRange.includesAddr_iff] at inside
  bv_omega

-----------------------------------------------------------------------------------------
-- Lookups
-----------------------------------------------------------------------------------------

/-- Where a window leads that a lookup of an access has found: to the bytes that the memory of the
one mapping keeps for the access, and past all locks.
-/
structure Hit (s : MemorySystem) (j : Nat) (a : Access) (dmi : TlmDmi) (m : Mapping) : Prop where
  mapped : m ∈ s.mappings
  includes : m.addr.includes (.ofAccess a.addr a.size) = true
  pointer
    : dmi.getPtr a.addr = (s.memories m.target).memory.dmi.ptr + (a.addr - m.addr.start)
  access : dmi.access = (s.memories m.target).memory.dmi.access
  readLatency : dmi.readLatency = (s.memories m.target).memory.dmi.readLatency
  writeLatency : dmi.writeLatency = (s.memories m.target).memory.dmi.writeLatency
  unlocked
    : ∀ lock ∈ (s.memories m.target).socket.exmon,
        lock.addr.overlaps (.ofAccess (a.addr - m.addr.start + m.offset) a.size) = false
  portUnlocked
    : ∀ lock ∈ (s.ports j).exmon, lock.addr.overlaps (.ofAccess a.addr a.size) = false

/-- A window of an initiator that includes a contiguous access leads to one mapping. All bytes of
the access are in the mapping of the first one, and no lock can overlap them without locking one.
-/
theorem Invariant.hit (inv : s.Invariant) {j : Nat} {cache : TlmDmiCache} {dmi : TlmDmi}
    {a : Access} (cached : (s.initiators j).dmiCache = some cache) (mem : dmi ∈ cache.entries)
    (includes : dmi.range.includes (.ofAccess a.addr a.size) = true)
    (contiguous : Contiguous s.mappings a)
    : ∃ m, s.Hit j a dmi m := by
  have granted
      : ∀ addr, (AddressRange.ofAccess a.addr a.size).includesAddr addr = true
        → ∃ m, s.Grants j (dmi.grantAt addr) m := by
    intro addr inside
    apply (inv.windows j cache cached).2
    exact ⟨dmi, mem, TlmDmi.grantAt_mem (AddressRange.includesAddr_of_includes includes inside)⟩
  have first : (AddressRange.ofAccess a.addr a.size).includesAddr a.addr = true :=
    AddressRange.includesAddr_iff.mpr ⟨le_rfl, contiguous.ordered⟩
  obtain ⟨m, grants⟩ := granted a.addr first
  have whole := contiguous.undivided m grants.mapped
    (AddressRange.overlaps_of_common grants.inside first)
  have others
      : ∀ addr, (AddressRange.ofAccess a.addr a.size).includesAddr addr = true
        → s.Grants j (dmi.grantAt addr) m := by
    intro addr inside
    obtain ⟨other, otherGrants⟩ := granted addr inside
    rw [← inv.wellFormed.unique otherGrants.mapped grants.mapped otherGrants.inside
      (AddressRange.includesAddr_of_includes whole inside)]
    exact otherGrants
  have fits := inv.wellFormed.fits m grants.mapped
  refine ⟨m, ⟨grants.mapped, whole, grants.pointer, grants.access, grants.readLatency,
    grants.writeLatency, ?_, ?_⟩⟩
  · intro lock locked
    rw [Bool.eq_false_iff]
    intro overlaps
    have ends := AddressRange.includes_iff_ends.mp whole
    rw [local_range fits] at overlaps
    have ordered := contiguous.ordered
    have lower := local_address ends.1
    have upper := local_address ends.2
    rw [AddressRange.includesAddr_iff, AddressRange.includesAddr_iff] at ends
    obtain ⟨addr, inLock, inside⟩ := AddressRange.common_of_overlaps
      (inv.memoryLocks m.target lock locked) (by simp only [lower, upper]; omega) overlaps
    rw [AddressRange.includesAddr_iff] at inside
    simp only [lower, upper] at inside
    have moved : (addr + m.addr.start).toNat = addr.toNat + m.addr.start.toNat := by bv_omega
    have free := (others (addr + m.addr.start)
      (AddressRange.includesAddr_iff.mpr (by omega))).unlocked lock locked
    rw [show (dmi.grantAt (addr + m.addr.start)).address = addr + m.addr.start from rfl,
      add_sub_cancel_right, inLock] at free
    cases free
  · intro lock locked
    rw [Bool.eq_false_iff]
    intro overlaps
    obtain ⟨addr, inLock, inside⟩ := AddressRange.common_of_overlaps
      (inv.portLocks j lock locked) contiguous.ordered overlaps
    have free := (others addr inside).portUnlocked lock locked
    rw [show (dmi.grantAt addr).address = addr from rfl, inLock] at free
    cases free

end MemorySystem

end VcmlPydrofoil
