import Mathlib.Data.List.Sort
import VcmlPydrofoil.Model.MemoryCallbacks

/-! The memory map of the system: `vcml::range`, the routing of `vcml::generic::bus`, and the two
memories that the constructor of `system` binds to it. No mapping is for one source only, and
there is no default route.
-/

namespace VcmlPydrofoil

/-- `vcml::range`: both ends are inside. -/
structure AddressRange where
  start : BitVec 64
  last : BitVec 64
  deriving DecidableEq

namespace AddressRange

/-- `range::includes(u64)`. -/
def includesAddr (range : AddressRange) (addr : BitVec 64) : Bool :=
  range.start ≤ addr && addr ≤ range.last

/-- `range::includes(const range&)`. -/
def includes (range other : AddressRange) : Bool :=
  range.includesAddr other.start && range.includesAddr other.last

/-- `range::overlaps`. -/
def overlaps (range other : AddressRange) : Bool :=
  range.start ≤ other.last && other.start ≤ range.last

/-- `range(const tlm_generic_payload&)`. -/
def ofAccess (address : BitVec 64) (size : BitVec 32) : AddressRange :=
  { start := address, last := address + size.setWidth 64 - 1 }

end AddressRange

/-- `bus::mapping`. -/
structure Mapping where
  target : Nat
  addr : AddressRange
  offset : BitVec 64 := 0
  deriving DecidableEq

/-- `bus::mapping::operator<`, and equality. -/
def Mapping.le (first second : Mapping) : Bool :=
  if first.addr.start = second.addr.start then first.target ≤ second.target
  else first.addr.start < second.addr.start

/-- `bus::map`: the mappings stay in order; `none` is the error for an overlap. -/
def mapRange (mappings : List Mapping) (target : Nat) (addr : AddressRange)
    : Option (List Mapping) :=
  if mappings.any (fun m => m.addr.overlaps addr) then none
  else some (mappings.orderedInsert (fun first second => first.le second) { target, addr })

/-- `bus::lookup`; `none` is `TARGET_NONE`. -/
def lookupMapping (mappings : List Mapping) (mem : AddressRange) : Option Mapping :=
  mappings.find? (fun m => m.addr.includes mem)

/-- `bus::b_transport` of a bus that is not lenient, over what the targets answer. -/
def busTransport (mappings : List Mapping) (answer : Nat → BitVec 64 → TlmResponseStatus)
    (address : BitVec 64) (size : BitVec 32)
    : TlmResponseStatus :=
  match lookupMapping mappings (.ofAccess address size) with
  | some m => answer m.target (address - m.addr.start + m.offset)
  | none => .addressError

/-- The properties `system.ram` and `system.bram`. -/
structure MemoryMap where
  ram : AddressRange
  bram : AddressRange
  deriving DecidableEq

/-- The enumerators of `system::memory_map` as the defaults of the two properties. -/
def defaultMemoryMap : MemoryMap :=
  {
    ram := { start := 0x80000000, last := 0x80000000 + 256 * 1024 - 1 }
    bram := { start := 0x00001000, last := 0x00001000 + 4 * 1024 - 1 }
  }

/-- The mappings that the constructor of `system` makes, in its order. -/
def MemoryMap.mappings (map : MemoryMap) : Option (List Mapping) :=
  (mapRange [] 0 map.ram).bind (fun mappings => mapRange mappings 1 map.bram)

end VcmlPydrofoil
