import VcmlPydrofoil.Library.MergingCache
import VcmlPydrofoil.Model.MemoryMap

/-! Direct memory access: the windows `tlm::tlm_dmi` that a target grants, and the cache of windows
`vcml::tlm_dmi_cache` that each socket keeps.
-/

namespace VcmlPydrofoil

/-- `tlm::tlm_command`. -/
inductive TlmCommand where
  | read
  | write
  | ignore
  deriving DecidableEq

/-- `vcml_access`, and `tlm_dmi::dmi_access_e` with the same values. -/
inductive VcmlAccess where
  | none
  | read
  | write
  | readWrite
  deriving DecidableEq

/-- `tlm_command_to_access`. -/
def tlmCommandToAccess : TlmCommand → VcmlAccess
  | .read => .read
  | .write => .write
  | .ignore => .none

/-- `range::range(u64, u64)`; `none` is the error "invalid range". -/
def AddressRange.make (start last : BitVec 64) : Option AddressRange :=
  if last < start && start - last > 1 then none else some { start, last }

/-- `range::connects`. -/
def AddressRange.connects (range other : AddressRange) : Bool :=
  other.start == range.last + 1 || range.start == other.last + 1

/-- `range::length`. -/
def AddressRange.length (range : AddressRange) : BitVec 64 := range.last - range.start + 1

/-- `tlm::tlm_dmi`. A latency is a number of units of `sc_time`. -/
structure TlmDmi where
  ptr : BitVec 64
  start : BitVec 64
  last : BitVec 64
  access : VcmlAccess
  readLatency : Nat := 0
  writeLatency : Nat := 0
  deriving DecidableEq

namespace TlmDmi

/-- `range::range(const tlm_dmi&)`. -/
def range (dmi : TlmDmi) : AddressRange := { start := dmi.start, last := dmi.last }

/-- `tlm_dmi::is_read_allowed`. -/
def isReadAllowed (dmi : TlmDmi) : Bool := dmi.access == .read || dmi.access == .readWrite

/-- `tlm_dmi::is_write_allowed`. -/
def isWriteAllowed (dmi : TlmDmi) : Bool := dmi.access == .write || dmi.access == .readWrite

/-- `dmi_check_access`. -/
def checkAccess (dmi : TlmDmi) : VcmlAccess → Bool
  | .read => dmi.isReadAllowed
  | .write => dmi.isWriteAllowed
  | .readWrite => dmi.isReadAllowed && dmi.isWriteAllowed
  | .none => true

/-- `dmi_get_ptr`. -/
def getPtr (dmi : TlmDmi) (addr : BitVec 64) : BitVec 64 := dmi.ptr + addr - dmi.start

/-- `dmi_set_start_address`: the pointer moves along. -/
def setStartAddress (dmi : TlmDmi) (addr : BitVec 64) : TlmDmi :=
  { dmi with ptr := dmi.getPtr addr, start := addr }

/-- `dmi_is_mergeable`. -/
def isMergeable (a b : TlmDmi) : Bool :=
  a.access == b.access && a.readLatency == b.readLatency && a.writeLatency == b.writeLatency
  && (a.range.overlaps b.range || a.range.connects b.range)
  && a.ptr + b.start - a.start == b.ptr

/-- `dmi_merge`. -/
def merge (a b : TlmDmi) : TlmDmi :=
  let result := if b.last > a.last then { a with last := b.last } else a
  if b.start < result.start then result.setStartAddress b.start else result

end TlmDmi

/-- `tlm_dmi_cache`. -/
structure TlmDmiCache where
  limit : Nat := 16
  entries : List TlmDmi := []
  deriving DecidableEq

namespace TlmDmiCache

/-- `tlm_dmi_cache::insert_locked`, and `insert`. -/
def insert (cache : TlmDmiCache) (dmi : TlmDmi) : TlmDmiCache :=
  let entries :=
    MergingCache.absorb TlmDmi.isMergeable TlmDmi.merge cache.entries.length dmi cache.entries
  { cache with entries := entries.take cache.limit }

/-- The body of the loop in `tlm_dmi_cache::invalidate`. A part of one byte is not kept. -/
def invalidateEntry (r : AddressRange) (cache : TlmDmiCache) (dmi : TlmDmi) : TlmDmiCache :=
  if !r.overlaps dmi.range then cache.insert dmi
  else
    let front := { dmi with last := r.start - 1 }
    let cache := if r.start > 0 && front.start < front.last then cache.insert front else cache
    let back := dmi.setStartAddress (r.last + 1)
    if r.last ≠ BitVec.allOnes 64 && back.start < back.last then cache.insert back else cache

/-- `tlm_dmi_cache::invalidate`: the result says whether an entry was hit. -/
def invalidate (cache : TlmDmiCache) (r : AddressRange) : Bool × TlmDmiCache :=
  (cache.entries.any (fun dmi => r.overlaps dmi.range),
    cache.entries.reverse.foldl (invalidateEntry r) { cache with entries := [] })

/-- `std::swap(m_entries[i], m_entries[0])`. -/
def swapFront (entries : List TlmDmi) (i : Nat) : List TlmDmi :=
  match entries[i]?, entries[0]? with
  | some dmi, some front => (entries.set i front).set 0 dmi
  | _, _ => entries

/-- `tlm_dmi_cache::lookup`: an entry that is found moves to the front. -/
def lookup (cache : TlmDmiCache) (r : AddressRange) (rwx : VcmlAccess)
    : Option TlmDmi × TlmDmiCache :=
  match cache.entries.findIdx? (fun dmi => dmi.range.includes r && dmi.checkAccess rwx) with
  | some i => (cache.entries[i]?, { cache with entries := swapFront cache.entries i })
  | none => (none, cache)

end TlmDmiCache

end VcmlPydrofoil
