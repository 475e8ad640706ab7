import VcmlPydrofoil.Model.MemoryMap
import VcmlPydrofoil.Model.Runs

/-! The address filter of the callbacks and the memory map of the bus. They agree exactly when
one range has the doublewords of the boot window and the other one those of the RAM window.
-/

namespace VcmlPydrofoil

variable {π β : Type} {s : State π β} {map : MemoryMap}

/-- The eight bytes at the address lie wholly inside the RAM or the boot memory. -/
def MemoryMap.Holds (map : MemoryMap) (address : BitVec 64) : Prop :=
  map.ram.includes (.ofAccess address 8) = true ∨ map.bram.includes (.ofAccess address 8) = true

instance (address : BitVec 64) : Decidable (map.Holds address) :=
  inferInstanceAs (Decidable (_ ∨ _))

/-- The mappings of an accepted map are those of its two ranges. -/
theorem MemoryMap.mem_mappings {mappings : List Mapping} (accepted : map.mappings = some mappings)
    {m : Mapping}
    : m ∈ mappings ↔ m = { target := 0, addr := map.ram } ∨ m = { target := 1, addr := map.bram } := by
  obtain ⟨first, one, two⟩ := Option.bind_eq_some_iff.mp accepted
  unfold mapRange at one two
  split at one
  · contradiction
  · split at two
    · contradiction
    · obtain rfl := Option.some.inj one
      obtain rfl := Option.some.inj two
      rw [List.mem_orderedInsert, List.mem_orderedInsert]
      simp [or_comm]

/-- The bus finds a target for eight bytes exactly when they lie inside one of the ranges. -/
theorem MemoryMap.lookup_iff {mappings : List Mapping} (accepted : map.mappings = some mappings)
    (address : BitVec 64)
    : lookupMapping mappings (.ofAccess address 8) ≠ none ↔ map.Holds address := by
  unfold lookupMapping MemoryMap.Holds
  rw [ne_eq, List.find?_eq_none, not_forall]
  simp only [not_forall, not_not, MemoryMap.mem_mappings accepted, exists_prop]
  constructor
  · rintro ⟨m, rfl | rfl, inside⟩
    · exact Or.inl inside
    · exact Or.inr inside
  · rintro (inside | inside)
    · exact ⟨_, Or.inl rfl, inside⟩
    · exact ⟨_, Or.inr rfl, inside⟩

/-- A bus with this map answers an access outside it with an address error. -/
theorem MemoryMap.addressError {mappings : List Mapping} (accepted : map.mappings = some mappings)
    (answer : Nat → BitVec 64 → TlmResponseStatus) {address : BitVec 64}
    (outside : ¬ map.Holds address)
    : busTransport mappings answer address 8 = .addressError := by
  have unmapped : lookupMapping mappings (.ofAccess address 8) = none := by
    by_contra found
    exact outside ((map.lookup_iff accepted address).mp found)
  simp only [busTransport, unmapped]

/-- The callback goes on to post its access to the SystemC thread. -/
def Forwards (s : State π β) (request : MemCallback) : Prop :=
  ∀ task next, (s.enterCallback task request next).worker = .post task request next

/-- While `sim_started` is set, the filter alone decides. -/
theorem forwards_iff (started : s.simStarted = true) (request : MemCallback)
    : Forwards s request ↔ accepted request.address = true := by
  unfold Forwards State.enterCallback
  cases passed : accepted request.address with
  | true => simp [started, State.beginCallback]
  | false =>
      simp only [Bool.not_false, ↓reduceIte, Bool.false_eq_true, iff_false, not_forall]
      exact ⟨{ pyFunct := .simulate, arg := .monostate, result := 0 }, fun _ => Script.done,
        by simp [State.filterCallback]⟩

/-- The callbacks forward the accesses of the glue code exactly when they lie inside the memory
map, and then the bus has a target for them.
-/
structure FilterAgrees (map : MemoryMap) (s : State π β) : Prop where
  exact : ∀ request, request.Issued → (Forwards s request ↔ map.Holds request.address)
  routed
    : ∀ mappings,
        map.mappings = some mappings
        → ∀ request,
            request.Issued
            → Forwards s request
            → lookupMapping mappings (.ofAccess request.address request.size) ≠ none

-----------------------------------------------------------------------------------------
-- Windows
-----------------------------------------------------------------------------------------

/-- The range has exactly the aligned doublewords from `first` to `last`. -/
def AddressRange.Spans (range : AddressRange) (first last : Nat) : Prop :=
  first < range.start.toNat + 8 ∧ range.start.toNat ≤ first
  ∧ last ≤ range.last.toNat ∧ range.last.toNat < last + 8

instance (range : AddressRange) (first last : Nat) : Decidable (range.Spans first last) :=
  inferInstanceAs (Decidable (_ ∧ _))

/-- A range includes an aligned doubleword when it includes its first and its last byte. -/
theorem AddressRange.includes_iff (range : AddressRange) {address : BitVec 64} {i : Nat}
    (aligned : address.toNat = 8 * i)
    : range.includes (.ofAccess address 8) = true
      ↔ range.start.toNat ≤ 8 * i ∧ 8 * i + 7 ≤ range.last.toNat := by
  have last : (address + BitVec.setWidth 64 (8 : BitVec 32) - 1).toNat = 8 * i + 7 := by
    have fits := address.isLt
    have size : (BitVec.setWidth 64 (8 : BitVec 32)).toNat = 8 := rfl
    have one : (1 : BitVec 64).toNat = 1 := rfl
    simp only [BitVec.toNat_sub, BitVec.toNat_add, size, one, aligned]
    omega
  simp only [AddressRange.includes, AddressRange.includesAddr, AddressRange.ofAccess,
    Bool.and_eq_true, decide_eq_true_eq, BitVec.le_def, last, aligned]
  omega

/-- The address of the doubleword with this index. -/
theorem exists_issued {i : Nat} (fits : 8 * i < 2 ^ 64)
    : ∃ request : MemCallback, request.Issued ∧ request.address.toNat = 8 * i := by
  refine ⟨.readMem (BitVec.ofNat 64 (i <<< 3)) 8 0, ⟨rfl, i, ?_, rfl⟩, ?_⟩
  · rw [Nat.shiftLeft_eq]
    omega
  · rw [MemCallback.address, BitVec.toNat_ofNat, Nat.shiftLeft_eq]
    omega

/-- What the filter and the map say about the doubleword with this index. -/
theorem FilterAgrees.at (agrees : FilterAgrees map s) (started : s.simStarted = true) {i : Nat}
    (fits : 8 * i < 2 ^ 64)
    : (0x1000 ≤ 8 * i ∧ 8 * i ≤ 0x1fff) ∨ (0x80000000 ≤ 8 * i ∧ 8 * i ≤ 0x8fffffff)
      ↔ (map.ram.start.toNat ≤ 8 * i ∧ 8 * i + 7 ≤ map.ram.last.toNat)
        ∨ (map.bram.start.toNat ≤ 8 * i ∧ 8 * i + 7 ≤ map.bram.last.toNat) := by
  obtain ⟨request, issued, aligned⟩ := exists_issued fits
  have same := agrees.exact request issued
  rw [forwards_iff started, accepted_iff, aligned, MemoryMap.Holds,
    map.ram.includes_iff aligned, map.bram.includes_iff aligned] at same
  exact same

/-- The two ranges have the doublewords of the two windows. -/
def MemoryMap.HasWindows (map : MemoryMap) : Prop :=
  (map.bram.Spans 0x1000 0x1fff ∧ map.ram.Spans 0x80000000 0x8fffffff)
  ∨ (map.ram.Spans 0x1000 0x1fff ∧ map.bram.Spans 0x80000000 0x8fffffff)

/-- The doublewords at both ends of both windows, and those just outside, leave no other map. -/
theorem FilterAgrees.hasWindows (agrees : FilterAgrees map s) (started : s.simStarted = true)
    : map.HasWindows := by
  have boot := (agrees.at started (show 8 * 0x200 < 2 ^ 64 by decide)).mp (by decide)
  have bootEnd := (agrees.at started (show 8 * 0x3ff < 2 ^ 64 by decide)).mp (by decide)
  have ram := (agrees.at started (show 8 * 0x10000000 < 2 ^ 64 by decide)).mp (by decide)
  have ramEnd := (agrees.at started (show 8 * 0x11ffffff < 2 ^ 64 by decide)).mp (by decide)
  have belowBoot := mt (agrees.at started (show 8 * 0x1ff < 2 ^ 64 by decide)).mpr (by decide)
  have aboveBoot := mt (agrees.at started (show 8 * 0x400 < 2 ^ 64 by decide)).mpr (by decide)
  have belowRam := mt (agrees.at started (show 8 * 0xfffffff < 2 ^ 64 by decide)).mpr (by decide)
  have aboveRam := mt (agrees.at started (show 8 * 0x12000000 < 2 ^ 64 by decide)).mpr (by decide)
  rw [not_or] at belowBoot aboveBoot belowRam aboveRam
  unfold MemoryMap.HasWindows AddressRange.Spans
  rcases boot with inRam | inBram
  · right
    have : map.bram.start.toNat ≤ 0x80000000 ∧ 0x80000007 ≤ map.bram.last.toNat := by omega
    omega
  · left
    have : map.ram.start.toNat ≤ 0x80000000 ∧ 0x80000007 ≤ map.ram.last.toNat := by omega
    omega

/-- With these ranges, the filter accepts exactly the doublewords of the map. -/
theorem MemoryMap.HasWindows.accepted_iff (windows : map.HasWindows) {request : MemCallback}
    (issued : request.Issued)
    : accepted request.address = true ↔ map.Holds request.address := by
  obtain ⟨i, aligned⟩ := issued.aligned
  rw [VcmlPydrofoil.accepted_iff, MemoryMap.Holds, map.ram.includes_iff aligned,
    map.bram.includes_iff aligned, aligned]
  unfold MemoryMap.HasWindows AddressRange.Spans at windows
  omega

/-- While a simulation runs, the filter agrees with the memory map exactly when one range has the
doublewords from 0x1000 to 0x1fff and the other one those from 0x80000000 to 0x8fffffff.
-/
theorem filterAgrees_iff (map : MemoryMap) (s : State π β) (started : s.simStarted = true)
    : FilterAgrees map s ↔ map.HasWindows := by
  constructor
  · exact fun agrees => agrees.hasWindows started
  · intro windows
    have exact : ∀ request : MemCallback,
        request.Issued → (Forwards s request ↔ map.Holds request.address) :=
      fun request issued => (forwards_iff started request).trans (windows.accepted_iff issued)
    refine { exact, routed := ?_ }
    intro mappings accepted request issued forwards
    rw [issued.1]
    exact (map.lookup_iff accepted request.address).mpr ((exact request issued).mp forwards)

/-- A RAM of 256 MiB, as large as the window of the callbacks. -/
def fullMemoryMap : MemoryMap :=
  { ram := { start := 0x80000000, last := 0x8fffffff }, bram := defaultMemoryMap.bram }

/-- A core in the middle of a simulation. -/
def simulatingCore : State Unit Unit := { State.initial () () with simStarted := true }

theorem filterAgrees_fullMemoryMap
    : (simulatingCore.simStarted = true ∧ fullMemoryMap.mappings ≠ none)
      ∧ FilterAgrees fullMemoryMap simulatingCore := by
  refine ⟨by decide, (filterAgrees_iff fullMemoryMap simulatingCore (by decide)).mpr ?_⟩
  exact Or.inl (by decide)

/-- With the default ranges, the filter forwards a write behind the end of the RAM, which the bus
answers with an address error.
-/
theorem filter_forwardsUnmapped
    : defaultMemoryMap.mappings ≠ none
      ∧ simulatingCore.simStarted = true
      ∧ (MemCallback.writeMem 0x80040000 8 42).Issued
      ∧ Forwards simulatingCore (.writeMem 0x80040000 8 42)
      ∧ (∀ mappings, defaultMemoryMap.mappings = some mappings
          → ∀ answer, busTransport mappings answer 0x80040000 8 = .addressError)
      ∧ ¬ FilterAgrees defaultMemoryMap simulatingCore := by
  have issued : (MemCallback.writeMem 0x80040000 8 42).Issued :=
    ⟨rfl, 0x10008000, by decide, rfl⟩
  have forwards : Forwards simulatingCore (.writeMem 0x80040000 8 42) :=
    (forwards_iff rfl _).mpr (by decide)
  have outside : ¬ defaultMemoryMap.Holds 0x80040000 := by decide
  refine ⟨by decide, rfl, issued, forwards, ?_, ?_⟩
  · exact fun mappings accepted answer => defaultMemoryMap.addressError accepted answer outside
  · exact fun agrees => outside ((agrees.exact _ issued).mp forwards)

end VcmlPydrofoil
