import VcmlPydrofoil.Transport.FlatMemory

/-! The memory system of `system`: for every memory map with ranges of at least one byte that the
bus accepts, its mappings fit their memories.
-/

namespace VcmlPydrofoil

/-- A range of at least one byte that does not reach the last address. -/
structure AddressRange.Proper (range : AddressRange) : Prop where
  ordered : range.start.toNat ≤ range.last.toNat
  below : range.last.toNat + 1 < 2 ^ 64

theorem AddressRange.Proper.length {range : AddressRange} (proper : range.Proper)
    : range.length.toNat = range.last.toNat - range.start.toNat + 1 := by
  have := proper.ordered
  have := proper.below
  unfold AddressRange.length
  bv_omega

/-- A memory with the length of a range, as `system` makes it. -/
structure GenericMemory.Spans (memory : GenericMemory) (base : BitVec 64) (range : AddressRange)
    : Prop where
  regular : memory.Regular
  ptr : memory.memory.dmi.ptr = base
  last : memory.memory.dmi.last.toNat = range.last.toNat - range.start.toNat
  writable : memory.memory.dmi.access = .readWrite ∧ memory.memory.discard = false
  exmon : memory.socket.exmon = []

/-- The constructor of `generic::memory` with a length and no other property. -/
theorem GenericMemory.make_spans {base : BitVec 64} {range : AddressRange} {page : Nat}
    {memory : GenericMemory} (proper : range.Proper)
    (made : GenericMemory.make base range.length false false 0 page 0 = some memory)
    : memory.Spans base range := by
  have length := proper.length
  have last : (range.length - 1).toNat = range.last.toNat - range.start.toNat := by bv_omega
  have noAlignment : ¬ 0 > page := Nat.not_lt_zero page
  unfold GenericMemory.make at made
  split at made
  · cases made
  · obtain rfl := Option.some.inj made
    simp only [TlmMemory.init, if_neg noAlignment]
    refine ⟨⟨rfl, ?_, ⟨_, rfl⟩, rfl, ?_, rfl, rfl⟩, ?_, last, ⟨rfl, rfl⟩, rfl⟩
    · simp only [last]
      bv_omega
    · exact fun discards => absurd discards Bool.false_ne_true
    · rw [add_zero]
      exact BitVec.and_allOnes

namespace MemorySystem

/-- The two mappings of a memory map that the bus accepts. -/
theorem mappings_of_map {map : MemoryMap} {mappings : List Mapping}
    (mapped : map.mappings = some mappings)
    : map.ram.overlaps map.bram = false
      ∧ mappings.Perm
          [{ target := 1, addr := map.bram }, { target := 0, addr := map.ram }] := by
  unfold MemoryMap.mappings at mapped
  simp only [mapRange, List.any_nil, Bool.false_eq_true, if_false, List.orderedInsert_nil,
    Option.bind_some, List.any_cons, Bool.or_false] at mapped
  split at mapped
  · cases mapped
  · next apart =>
      obtain rfl := Option.some.inj mapped
      exact ⟨Bool.eq_false_iff.mpr apart, List.perm_orderedInsert _ _ _⟩

/-- The blocks of the two memories on the host keep apart, as those of two calls of `mmap` do. -/
structure HostBlocks.Apart (blocks : HostBlocks) (map : MemoryMap) : Prop where
  sram : blocks.sram.toNat + map.ram.length.toNat ≤ 2 ^ 64
  bram : blocks.bram.toNat + map.bram.length.toNat ≤ 2 ^ 64
  disjoint
    : blocks.sram.toNat + map.ram.length.toNat ≤ blocks.bram.toNat
      ∨ blocks.bram.toNat + map.bram.length.toNat ≤ blocks.sram.toNat

variable {map : MemoryMap} {blocks : HostBlocks} {host : ByteMemory} {s : MemorySystem}

/-- What `system` makes for a memory map. -/
structure Built (s : MemorySystem) (map : MemoryMap) (blocks : HostBlocks) (host : ByteMemory)
    : Prop where
  initiators : s.initiators = fun _ => {}
  ports : s.ports = fun _ => {}
  apart : map.ram.overlaps map.bram = false
  mappings : s.mappings.Perm [{ target := 1, addr := map.bram }, { target := 0, addr := map.ram }]
  ram : (s.memories 0).Spans blocks.sram map.ram
  others : ∀ target, target ≠ 0 → (s.memories target).Spans blocks.bram map.bram
  host : s.host = host

theorem built_of_map (ram : map.ram.Proper) (bram : map.bram.Proper)
    (made : ofMap map blocks host = some s)
    : s.Built map blocks host := by
  unfold ofMap at made
  obtain ⟨mappings, mapped, made⟩ := Option.bind_eq_some_iff.mp made
  obtain ⟨m_ram, madeRam, made⟩ := Option.bind_eq_some_iff.mp made
  obtain ⟨m_bram, madeBram, rfl⟩ := Option.map_eq_some_iff.mp made
  obtain ⟨apart, perm⟩ := mappings_of_map mapped
  refine ⟨rfl, rfl, apart, perm, GenericMemory.make_spans ram madeRam, ?_, rfl⟩
  intro target other
  simp only [if_neg other]
  exact GenericMemory.make_spans bram madeBram

/-- A mapping is one of the two. -/
theorem Built.mapping (built : s.Built map blocks host) {m : Mapping} (mapped : m ∈ s.mappings)
    : m = { target := 0, addr := map.ram } ∧ (s.memories m.target).Spans blocks.sram m.addr
      ∨ m = { target := 1, addr := map.bram } ∧ (s.memories m.target).Spans blocks.bram m.addr := by
  have cases := built.mappings.mem_iff.mp mapped
  simp only [List.mem_cons, List.not_mem_nil, or_false] at cases
  rcases cases with rfl | rfl
  · exact .inr ⟨rfl, built.others 1 Nat.one_ne_zero⟩
  · exact .inl ⟨rfl, built.ram⟩

/-- The memory system of `system` is well-formed before its first access. -/
theorem Built.wellFormed (built : s.Built map blocks host) (ram : map.ram.Proper)
    (bram : map.bram.Proper)
    : s.WellFormed := by
  refine ⟨?_, ?_, ?_⟩
  · have symm
        : ∀ (first second : Mapping), first.addr.overlaps second.addr = false
            → second.addr.overlaps first.addr = false := by
      intro first second apart
      rw [Bool.eq_false_iff, ne_eq, AddressRange.overlaps_iff] at apart ⊢
      omega
    apply (built.mappings.pairwise_iff (symm _ _)).mpr
    refine List.pairwise_cons.mpr ⟨?_, List.pairwise_singleton _ _⟩
    intro other mem
    obtain rfl := List.mem_singleton.mp mem
    exact symm { target := 0, addr := map.ram } { target := 1, addr := map.bram } built.apart
  · intro m mapped
    have fits
        : ∀ {base : BitVec 64}, m.addr.Proper → m.offset = 0
            → (s.memories m.target).Spans base m.addr
            → m.Fits (s.memories m.target) := by
      intro base proper offset spans
      have := proper.ordered
      have := proper.below
      exact ⟨offset, proper.ordered, by rw [spans.last]; omega, by rw [spans.last]; omega⟩
    rcases built.mapping mapped with ⟨rfl, spans⟩ | ⟨rfl, spans⟩
    · exact fits ram rfl spans
    · exact fits bram rfl spans
  · intro m mapped
    rcases built.mapping mapped with ⟨_, spans⟩ | ⟨_, spans⟩
    · exact spans.regular
    · exact spans.regular

theorem Built.separate (built : s.Built map blocks host) (ram : map.ram.Proper)
    (bram : map.bram.Proper) (apart : blocks.Apart map)
    : s.Separate := by
  have ramLength := ram.length
  have bramLength := bram.length
  have sramBound := apart.sram
  have bramBound := apart.bram
  have disjoint := apart.disjoint
  refine ⟨?_, ?_, ?_⟩
  · intro m mapped
    rcases built.mapping mapped with ⟨rfl, spans⟩ | ⟨rfl, spans⟩
    · rw [spans.ptr, spans.last]
      simp only
      omega
    · rw [spans.ptr, spans.last]
      simp only
      omega
  · intro first firstMapped second secondMapped different
    rcases built.mapping firstMapped with ⟨rfl, spans⟩ | ⟨rfl, spans⟩ <;>
      rcases built.mapping secondMapped with ⟨rfl, others⟩ | ⟨rfl, others⟩
    · exact absurd rfl different
    · rw [spans.ptr, spans.last, others.ptr, others.last]
      simp only
      omega
    · rw [spans.ptr, spans.last, others.ptr, others.last]
      simp only
      omega
    · exact absurd rfl different
  · intro m mapped
    rcases built.mapping mapped with ⟨_, spans⟩ | ⟨_, spans⟩
    · exact spans.writable
    · exact spans.writable

/-- No window has been given away and nothing is locked. -/
theorem Built.fresh (built : s.Built map blocks host)
    : (∀ j, (s.initiators j).dmiCache = none) ∧ (∀ j, (s.ports j).exmon = [])
      ∧ ∀ target, (s.memories target).socket.exmon = [] := by
  refine ⟨fun j => by rw [built.initiators], fun j => by rw [built.ports], ?_⟩
  intro target
  by_cases first : target = 0
  · rw [first]
    exact built.ram.exmon
  · exact (built.others target first).exmon

end MemorySystem

end VcmlPydrofoil
