import VcmlPydrofoil.Correctness.FlatMemory
import VcmlPydrofoil.Correctness.Linearization
import VcmlPydrofoil.MemoryChannel.Buses
import VcmlPydrofoil.Model.DataSocket
import VcmlPydrofoil.Plugin.CoreCalls

/-! The virtual platform: the core with the glue code on the memory system. Its threads, its plugin
and its memory system together are one thread on one flat memory.
-/

namespace VcmlPydrofoil

open MemorySystem (Access Response dataBus)

-----------------------------------------------------------------------------------------
-- The data socket
-----------------------------------------------------------------------------------------

/-- A flat memory as a bus. -/
def FlatMemory.bus (mappings : List Mapping) : Bus ByteMemory where
  read bytes addr size word :=
    let (response, bytes) := FlatMemory.access mappings bytes (.ofRead addr size word)
    (response.status, MemorySystem.overlay word size response.data, bytes)
  write bytes addr size value :=
    let (response, bytes) := FlatMemory.access mappings bytes (.ofWrite addr size value)
    (response.status, bytes)

/-- The mappings begin and end at doublewords. -/
def DoublewordMappings (mappings : List Mapping) : Prop :=
  ∀ m ∈ mappings, m.addr.start.toNat % 8 = 0 ∧ (m.addr.last.toNat + 1) % 8 = 0

instance (mappings : List Mapping) : Decidable (DoublewordMappings mappings) :=
  inferInstanceAs
    (Decidable (∀ m ∈ mappings, m.addr.start.toNat % 8 = 0 ∧ (m.addr.last.toNat + 1) % 8 = 0))

namespace MemorySystem

variable {s : MemorySystem}

/-- Then an aligned doubleword is in one of them or outside all. -/
theorem contiguous_of_aligned {mappings : List Mapping} (doublewords : DoublewordMappings mappings)
    {a : Access} (size : a.size = 8) {i : Nat} (aligned : a.addr.toNat = 8 * i)
    : Contiguous mappings a := by
  have bound := a.addr.isLt
  have last : (a.addr + BitVec.setWidth 64 (8 : BitVec 32) - 1).toNat = 8 * i + 7 := by bv_omega
  refine ⟨by rw [size]; decide, ?_, ?_⟩
  · simp only [AddressRange.ofAccess, size, last, aligned]
    omega
  · intro m mapped common
    obtain ⟨start, stop⟩ := doublewords m mapped
    rw [AddressRange.overlaps_iff] at common
    rw [AddressRange.includes_iff_ends, AddressRange.includesAddr_iff,
      AddressRange.includesAddr_iff]
    simp only [AddressRange.ofAccess, size, last, aligned] at common ⊢
    omega

/-- A whole access, with its request for a window, is one of the flat memory. -/
theorem Invariant.access_flat (inv : s.Invariant) (separate : s.Separate) (j : Nat) {a : Access}
    (contiguous : Contiguous s.mappings a) (plain : FlatMemory.mayRefuse a = false)
    : ∃ response next,
        s.access j a = some (response, next)
        ∧ next.Invariant
        ∧ s.Stable next
        ∧ (response, next.flat) = FlatMemory.access s.mappings s.flat a := by
  have regular : (Call.access j a).Contiguous s.mappings := contiguous
  obtain ⟨answer, _, after, performed, _, outcome⟩ := inv.perform_access separate j contiguous
  obtain ⟨kept, stable⟩ := inv.perform regular performed
  obtain ⟨⟨response, pending, middle⟩, began, same⟩ := Option.map_eq_some_iff.mp performed
  obtain ⟨equal, rfl⟩ := Prod.mk.inj same
  obtain rfl := Option.some.inj equal
  have served : (response, middle.flat) = FlatMemory.access s.mappings s.flat a := by
    rcases outcome with ⟨served, _⟩ | ⟨refused, _⟩
    · exact served
    · rw [plain] at refused
      cases refused
  unfold MemorySystem.access
  rw [began]
  cases pending with
  | none => exact ⟨response, middle, rfl, kept, stable, served⟩
  | some tx =>
      have requested : middle.perform (.requestDmi j tx) = some (none, middle.requestDmi j tx) := rfl
      have noAccess : (Call.requestDmi j tx).Contiguous middle.mappings := trivial
      obtain ⟨again, still⟩ := kept.perform noAccess requested
      refine ⟨response, middle.requestDmi j tx, rfl, again, stable.trans still, ?_⟩
      obtain ⟨_, dmiCache, same⟩ := kept.requestDmi j tx
      rw [← served, same]
      rfl

/-- A memory system that is seen as these bytes behind these mappings. -/
structure Views (mappings : List Mapping) (s : MemorySystem) (bytes : ByteMemory) : Prop where
  invariant : s.Invariant
  separate : s.Separate
  mappings : s.mappings = mappings
  flat : s.flat = bytes

/-- An aligned doubleword is read and written as in the flat memory. -/
theorem dataBus_agree {mappings : List Mapping} (doublewords : DoublewordMappings mappings) (j : Nat)
    : (dataBus j).Agree (FlatMemory.bus mappings) (Views mappings) := by
  have steps
      : ∀ {s : MemorySystem} {bytes : ByteMemory} {a : Access} {i : Nat}, Views mappings s bytes
          → a.size = 8 → a.addr.toNat = 8 * i → FlatMemory.mayRefuse a = false
          → ∃ next,
              s.access j a = some ((FlatMemory.access mappings bytes a).1, next)
              ∧ Views mappings next (FlatMemory.access mappings bytes a).2 := by
    rintro s bytes a i ⟨inv, separate, rfl, rfl⟩ size aligned plain
    obtain ⟨response, next, accessed, kept, stable, served⟩ :=
      inv.access_flat separate j (contiguous_of_aligned doublewords size aligned) plain
    have first : response = (FlatMemory.access s.mappings s.flat a).1 := congrArg Prod.fst served
    have second : next.flat = (FlatMemory.access s.mappings s.flat a).2 := congrArg Prod.snd served
    exact ⟨next, first ▸ accessed, kept, separate.of_stable stable, stable.mappings, second⟩
  constructor
  · rintro s bytes addr word views ⟨i, aligned⟩
    obtain ⟨next, accessed, after⟩ := steps views (a := .ofRead addr 8 word) rfl aligned rfl
    simp only [dataBus, accessed]
    exact ⟨rfl, after⟩
  · rintro s bytes addr value views ⟨i, aligned⟩
    obtain ⟨next, accessed, after⟩ := steps views (a := .ofWrite addr 8 value) rfl aligned rfl
    simp only [dataBus, accessed]
    exact ⟨rfl, after⟩

end MemorySystem

-----------------------------------------------------------------------------------------
-- The platform
-----------------------------------------------------------------------------------------

variable {π β γ χ : Type}

/-- References that agree have seen the same. -/
theorem Sequential.Agree.precedes {related : β → γ → Prop} {first : Sequential π β}
    {second : Sequential π γ} (same : first.Agree related second)
    : first.Precedes second :=
  ⟨same.accesses ▸ List.prefix_refl _, same.callbacks ▸ List.prefix_refl _,
    same.values ▸ List.prefix_refl _⟩

/-- A linearizable state is one on every bus that answers alike. -/
theorem Linear.agree {vp : Platform π β} {plain : Platform π γ} {related : β → γ → Prop}
    (agree : vp.bus.Agree plain.bus related) (api : vp.api = plain.api) (issues : plain.api.Issues)
    {initially : Sequential π β} {start : Sequential π γ} (same : initially.Agree related start)
    {s : State π β} (linear : Linear vp initially s)
    : Linear plain start s := by
  refine ⟨linear.seen.trans (Sequential.foldl_agree agree api issues same _).precedes, ?_⟩
  intro c id value member
  obtain ⟨posted, received⟩ := linear.received c id value member
  refine ⟨posted, ?_⟩
  rw [← received, Sequential.value, Sequential.value]
  congr 2
  exact (Sequential.foldl_agree agree api issues same _).values.symm

/-- A CPU that copies the first doubleword of the RAM to the second one in every step. -/
def copyingCpu : Pydrofoil Unit where
  create _ _ _ := .ret (some ())
  callbacks := true
  step _ :=
    .ask (.read 0x10000000) fun word =>
      .ask (.write 0x10000001 (word.getD 0)) fun written => .ret (written, ())
  readRegister _ _ := some 0
  writeRegister _ _ _ := (true, ())
  setVerbosity _ _ := (true, ())

/-- The platform is built and simulates one step while another client reads the program counter. -/
def platformLabels : List Label :=
  let client steps := List.replicate steps (Label.client 0)
  let worker steps := List.replicate steps (Label.worker 0)
  [.call 0 (.construct "rv64")] ++ client 2 ++ worker 8 ++ client 3 ++ worker 8 ++ client 1
    ++ [.call 0 .endOfElaboration] ++ worker 4 ++ client 2 ++ worker 7 ++ client 1
    ++ [.call 0 (.simulate 1), .call 1 (.readRegDbg 0 8)] ++ worker 4 ++ client 7 ++ [.client 1]
    ++ worker 8 ++ client 9 ++ worker 4 ++ client 9 ++ worker 7 ++ [.client 1] ++ worker 9
    ++ [.client 1] ++ client 5

theorem defaultSystem_doublewords
    : DoublewordMappings MemorySystem.defaultSystem.mappings := by
  decide

end VcmlPydrofoil
