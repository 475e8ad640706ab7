import Mathlib.Data.BitVec
import Mathlib.Tactic.Abel
import VcmlPydrofoil.Model.DmiCache

/-! What the windows of a DMI cache grant, byte by byte. Merging keeps the union of the grants
unless the addresses wrap around, invalidation takes a range away, and everything else a cache
does can only forget.
-/

namespace VcmlPydrofoil

/-- The permission to reach one byte: where the window puts it on the host, and on which terms. -/
structure DmiGrant where
  address : BitVec 64
  pointer : BitVec 64
  access : VcmlAccess
  readLatency : Nat
  writeLatency : Nat

-----------------------------------------------------------------------------------------
-- Windows
-----------------------------------------------------------------------------------------

theorem AddressRange.includesAddr_iff {range : AddressRange} {addr : BitVec 64}
    : range.includesAddr addr = true
      ↔ range.start.toNat ≤ addr.toNat ∧ addr.toNat ≤ range.last.toNat := by
  simp [includesAddr, BitVec.le_def]

theorem AddressRange.overlaps_iff {range other : AddressRange}
    : range.overlaps other = true
      ↔ range.start.toNat ≤ other.last.toNat ∧ other.start.toNat ≤ range.last.toNat := by
  simp [overlaps, BitVec.le_def]

namespace TlmDmi

/-- What a window grants. -/
def grants (dmi : TlmDmi) : Set DmiGrant :=
  {grant |
    dmi.range.includesAddr grant.address = true
    ∧ grant.pointer = dmi.getPtr grant.address
    ∧ grant.access = dmi.access
    ∧ grant.readLatency = dmi.readLatency
    ∧ grant.writeLatency = dmi.writeLatency}

theorem mem_grants {dmi : TlmDmi} {grant : DmiGrant}
    : grant ∈ dmi.grants
      ↔ dmi.range.includesAddr grant.address = true
        ∧ grant.pointer = dmi.getPtr grant.address
        ∧ grant.access = dmi.access
        ∧ grant.readLatency = dmi.readLatency
        ∧ grant.writeLatency = dmi.writeLatency :=
  Iff.rfl

/-- The permission that a window gives for an address in it. -/
def grantAt (dmi : TlmDmi) (addr : BitVec 64) : DmiGrant :=
  {
    address := addr, pointer := dmi.getPtr addr, access := dmi.access
    readLatency := dmi.readLatency, writeLatency := dmi.writeLatency
  }

theorem grantAt_mem {dmi : TlmDmi} {addr : BitVec 64}
    (inside : dmi.range.includesAddr addr = true)
    : dmi.grantAt addr ∈ dmi.grants :=
  ⟨inside, rfl, rfl, rfl, rfl⟩

/-- A window of at least one byte that does not reach the last address. -/
structure Proper (dmi : TlmDmi) : Prop where
  ordered : dmi.start.toNat ≤ dmi.last.toNat
  below : dmi.last.toNat + 1 < 2 ^ 64

/-- The pointer into a window does not depend on where the window starts. -/
@[simp] theorem getPtr_setStartAddress (dmi : TlmDmi) (start addr : BitVec 64)
    : (dmi.setStartAddress start).getPtr addr = dmi.getPtr addr := by
  simp only [setStartAddress, getPtr]
  abel

/-- A window with another end has the same pointers. -/
@[simp] theorem getPtr_last (dmi : TlmDmi) (last addr : BitVec 64)
    : { dmi with last }.getPtr addr = dmi.getPtr addr := rfl

/-- What `dmi_is_mergeable` compares. -/
structure Mergeable (a b : TlmDmi) : Prop where
  access : a.access = b.access
  readLatency : a.readLatency = b.readLatency
  writeLatency : a.writeLatency = b.writeLatency
  touching : a.range.overlaps b.range = true ∨ a.range.connects b.range = true
  pointer : ∀ addr, a.getPtr addr = b.getPtr addr

theorem isMergeable_iff {a b : TlmDmi} : a.isMergeable b = true ↔ a.Mergeable b := by
  have pointers : a.ptr + b.start - a.start = b.ptr ↔ ∀ addr, a.getPtr addr = b.getPtr addr := by
    constructor
    · intro same addr
      simp only [getPtr, ← same]
      abel
    · intro same
      have at_start := same b.start
      simpa only [getPtr, add_sub_cancel_right] using at_start
  simp only [isMergeable, Bool.and_eq_true, beq_iff_eq, Bool.or_eq_true, pointers]
  constructor
  · rintro ⟨⟨⟨⟨access, readLatency⟩, writeLatency⟩, touching⟩, pointer⟩
    exact ⟨access, readLatency, writeLatency, touching, pointer⟩
  · rintro ⟨access, readLatency, writeLatency, touching, pointer⟩
    exact ⟨⟨⟨⟨access, readLatency⟩, writeLatency⟩, touching⟩, pointer⟩

/-- The test does not depend on the order. -/
theorem isMergeable_symm (a b : TlmDmi) : a.isMergeable b = b.isMergeable a := by
  have half : ∀ {first second : TlmDmi}, first.Mergeable second → second.Mergeable first := by
    intro first second able
    refine ⟨able.access.symm, able.readLatency.symm, able.writeLatency.symm, ?_,
      fun addr => (able.pointer addr).symm⟩
    rcases able.touching with overlaps | connects
    · left
      rw [AddressRange.overlaps_iff] at overlaps ⊢
      omega
    · right
      simp only [AddressRange.connects, Bool.or_eq_true, beq_iff_eq] at connects ⊢
      exact connects.symm
  rw [Bool.eq_iff_iff, isMergeable_iff, isMergeable_iff]
  exact ⟨half, half⟩

/-- Proper windows that touch leave no gap. -/
theorem Mergeable.no_gap {a b : TlmDmi} (able : a.Mergeable b) (ha : a.Proper) (hb : b.Proper)
    : a.start.toNat ≤ b.last.toNat + 1 ∧ b.start.toNat ≤ a.last.toNat + 1 := by
  have := ha.below
  have := hb.below
  have := ha.ordered
  have := hb.ordered
  rcases able.touching with overlaps | connects
  · have := AddressRange.overlaps_iff.mp overlaps
    simp only [range] at this
    omega
  · simp only [AddressRange.connects, Bool.or_eq_true, beq_iff_eq, range] at connects
    rcases connects with next | next
    · have same : b.start.toNat = a.last.toNat + 1 := by
        rw [next]
        bv_omega
      omega
    · have same : a.start.toNat = b.last.toNat + 1 := by
        rw [next]
        bv_omega
      omega

/-- The fields of a merged window. -/
structure Merged (a b merged : TlmDmi) : Prop where
  start : merged.start.toNat = min a.start.toNat b.start.toNat
  last : merged.last.toNat = max a.last.toNat b.last.toNat
  access : merged.access = a.access
  readLatency : merged.readLatency = a.readLatency
  writeLatency : merged.writeLatency = a.writeLatency
  pointer : ∀ addr, merged.getPtr addr = a.getPtr addr

theorem merge_merged (a b : TlmDmi) : Merged a b (a.merge b) := by
  have start : (a.merge b).start = if b.start < a.start then b.start else a.start := by
    unfold merge
    by_cases last : b.last > a.last <;> by_cases start : b.start < a.start <;>
      simp [last, start, setStartAddress]
  have last : (a.merge b).last = if b.last > a.last then b.last else a.last := by
    unfold merge
    by_cases last : b.last > a.last <;> by_cases start : b.start < a.start <;>
      simp [last, start, setStartAddress]
  refine ⟨?_, ?_, ?_, ?_, ?_, ?_⟩
  · rw [start]
    split
    · next less => rw [BitVec.lt_def] at less; omega
    · next less => rw [BitVec.lt_def] at less; omega
  · rw [last]
    split
    · next less => rw [gt_iff_lt, BitVec.lt_def] at less; omega
    · next less => rw [gt_iff_lt, BitVec.lt_def] at less; omega
  all_goals
    unfold merge
    by_cases last : b.last > a.last <;> by_cases start : b.start < a.start <;>
      simp only [last, start, if_true, if_false] <;>
      first | rfl | simp

/-- Merging keeps windows proper. -/
theorem Proper.merge {a b : TlmDmi} (ha : a.Proper) (hb : b.Proper) : (a.merge b).Proper := by
  have merged := merge_merged a b
  have := ha.ordered
  have := hb.ordered
  have := ha.below
  have := hb.below
  constructor
  · rw [merged.start, merged.last]
    omega
  · rw [merged.last]
    omega

/-- A merged window grants what its two parts grant. -/
theorem Mergeable.grants_merge {a b : TlmDmi} (able : a.Mergeable b) (ha : a.Proper)
    (hb : b.Proper)
    : (a.merge b).grants = a.grants ∪ b.grants := by
  have merged := merge_merged a b
  have gap := able.no_gap ha hb
  have := ha.ordered
  have := hb.ordered
  ext grant
  have inside
      : (a.merge b).range.includesAddr grant.address = true
        ↔ a.range.includesAddr grant.address = true ∨ b.range.includesAddr grant.address = true := by
    simp only [AddressRange.includesAddr_iff, range]
    rw [merged.start, merged.last]
    omega
  simp only [mem_grants, Set.mem_union, inside, merged.pointer, merged.access,
    merged.readLatency, merged.writeLatency, ← able.pointer, ← able.access, ← able.readLatency,
    ← able.writeLatency]
  tauto

end TlmDmi

-----------------------------------------------------------------------------------------
-- Caches
-----------------------------------------------------------------------------------------

namespace TlmDmiCache

/-- What the entries of a cache grant together. -/
def grants (cache : TlmDmiCache) : Set DmiGrant :=
  MergingCache.cover TlmDmi.grants cache.entries

/-- The entries are proper windows, no two of them can be merged, and they are no more than the
limit.
-/
structure Invariant (cache : TlmDmiCache) : Prop where
  proper : ∀ dmi ∈ cache.entries, dmi.Proper
  apart : cache.entries.Pairwise (fun first second => first.isMergeable second = false)
  bounded : cache.entries.length ≤ cache.limit

/-- A cache without entries. -/
theorem Invariant.empty (limit : Nat) : Invariant { limit } :=
  ⟨by simp, .nil, Nat.zero_le _⟩

@[simp] theorem grants_empty (limit : Nat) : grants { limit } = ∅ :=
  MergingCache.cover_nil

theorem merge_proper {a b : TlmDmi} (ha : a.Proper) (hb : b.Proper)
    (_able : a.isMergeable b = true)
    : (a.merge b).Proper :=
  ha.merge hb

theorem merge_grants {a b : TlmDmi} (ha : a.Proper) (hb : b.Proper)
    (able : a.isMergeable b = true)
    : (a.merge b).grants = a.grants ∪ b.grants :=
  (TlmDmi.isMergeable_iff.mp able).grants_merge ha hb

variable {cache : TlmDmiCache} {dmi : TlmDmi}

/-- An insertion keeps the invariant. -/
theorem Invariant.insert (inv : cache.Invariant) (proper : dmi.Proper)
    : (cache.insert dmi).Invariant where
  proper := by
    intro e mem
    exact MergingCache.absorb_keeps merge_proper _ proper inv.proper e (List.mem_of_mem_take mem)
  apart := (MergingCache.absorb_pairwise _ le_rfl inv.apart).sublist (List.take_sublist _ _)
  bounded := List.length_take_le _ _

/-- An insertion grants nothing but the new window. -/
theorem Invariant.insert_grants (inv : cache.Invariant) (proper : dmi.Proper)
    : (cache.insert dmi).grants ⊆ dmi.grants ∪ cache.grants := by
  have all := MergingCache.cover_absorb merge_proper merge_grants cache.entries.length proper
    inv.proper
  unfold grants
  rw [← all]
  exact MergingCache.cover_mono (List.take_subset _ _)

/-- An insertion below the limit grants the new window, and what was granted before. -/
theorem Invariant.insert_grants_eq (inv : cache.Invariant) (proper : dmi.Proper)
    (room : cache.entries.length < cache.limit)
    : (cache.insert dmi).grants = dmi.grants ∪ cache.grants := by
  have short : (MergingCache.absorb TlmDmi.isMergeable TlmDmi.merge cache.entries.length dmi
      cache.entries).length ≤ cache.limit :=
    (MergingCache.length_absorb_le _).trans room
  have all := MergingCache.cover_absorb merge_proper merge_grants cache.entries.length proper
    inv.proper
  unfold grants
  rw [← all]
  simp only [TlmDmiCache.insert, List.take_of_length_le short]

/-- What a set of grants leaves after a range is taken away. -/
def outside (r : AddressRange) (grants : Set DmiGrant) : Set DmiGrant :=
  {grant ∈ grants | r.includesAddr grant.address = false}

/-- The part of a window before a range. -/
theorem front_of_overlap {r : AddressRange} (positive : 0 < r.start)
    (longer : dmi.start < r.start - 1)
    : { dmi with last := r.start - 1 : TlmDmi }.Proper
      ∧ (r.overlaps dmi.range = true
        → { dmi with last := r.start - 1 : TlmDmi }.grants ⊆ outside r dmi.grants) := by
  have before : (r.start - 1).toNat = r.start.toNat - 1 := by bv_omega
  rw [BitVec.lt_def] at positive longer
  constructor
  · have := r.start.isLt
    constructor <;> simp only [before] <;> bv_omega
  · intro overlaps grant granted
    have overlap := AddressRange.overlaps_iff.mp overlaps
    obtain ⟨inside, pointer, terms⟩ := TlmDmi.mem_grants.mp granted
    rw [AddressRange.includesAddr_iff] at inside
    simp only [TlmDmi.range, before] at inside overlap
    refine ⟨TlmDmi.mem_grants.mpr ⟨?_, pointer, terms⟩, ?_⟩
    · rw [AddressRange.includesAddr_iff]
      simp only [TlmDmi.range]
      omega
    · rw [Bool.eq_false_iff, ne_eq, AddressRange.includesAddr_iff]
      bv_omega

/-- The part of a window behind a range. -/
theorem back_of_overlap {r : AddressRange} (proper : dmi.Proper)
    (below : r.last ≠ BitVec.allOnes 64) (longer : r.last + 1 < dmi.last)
    : (dmi.setStartAddress (r.last + 1)).Proper
      ∧ (r.overlaps dmi.range = true
        → (dmi.setStartAddress (r.last + 1)).grants ⊆ outside r dmi.grants) := by
  have not_last : r.last.toNat ≠ 2 ^ 64 - 1 := by
    intro same
    exact below (BitVec.eq_of_toNat_eq (same.trans BitVec.toNat_allOnes.symm))
  have after : (r.last + 1).toNat = r.last.toNat + 1 := by bv_omega
  rw [BitVec.lt_def, after] at longer
  constructor
  · constructor
    · show (r.last + 1).toNat ≤ dmi.last.toNat
      omega
    · exact proper.below
  · intro overlaps grant granted
    have overlap := AddressRange.overlaps_iff.mp overlaps
    obtain ⟨inside, pointer, terms⟩ := TlmDmi.mem_grants.mp granted
    rw [AddressRange.includesAddr_iff] at inside
    simp only [TlmDmi.range, TlmDmi.setStartAddress, after] at inside overlap
    rw [TlmDmi.getPtr_setStartAddress] at pointer
    refine ⟨TlmDmi.mem_grants.mpr ⟨?_, pointer, terms⟩, ?_⟩
    · rw [AddressRange.includesAddr_iff]
      simp only [TlmDmi.range]
      omega
    · rw [Bool.eq_false_iff, ne_eq, AddressRange.includesAddr_iff]
      omega

/-- Inserting a window on a condition. -/
theorem Invariant.insert_if (inv : cache.Invariant) (dmi : TlmDmi) (condition : Bool)
    {bound : Set DmiGrant} (holds : condition = true → dmi.Proper ∧ dmi.grants ⊆ bound)
    : (if condition then cache.insert dmi else cache).Invariant
      ∧ (if condition then cache.insert dmi else cache).grants ⊆ cache.grants ∪ bound := by
  cases condition with
  | false => exact ⟨inv, Set.subset_union_left⟩
  | true =>
      obtain ⟨proper, sub⟩ := holds rfl
      refine ⟨inv.insert proper, (inv.insert_grants proper).trans ?_⟩
      rw [Set.union_comm]
      exact Set.union_subset_union_right _ sub

/-- One round of the invalidation keeps the invariant and adds what the entry grants outside the
range.
-/
theorem Invariant.invalidateEntry (inv : cache.Invariant) (proper : dmi.Proper)
    (r : AddressRange)
    : (invalidateEntry r cache dmi).Invariant
      ∧ (TlmDmiCache.invalidateEntry r cache dmi).grants ⊆ cache.grants ∪ outside r dmi.grants := by
  unfold TlmDmiCache.invalidateEntry
  by_cases overlaps : r.overlaps dmi.range = true
  · rw [if_neg (by simp [overlaps])]
    obtain ⟨frontInv, frontGrants⟩ := inv.insert_if { dmi with last := r.start - 1 }
      (r.start > 0 && dmi.start < r.start - 1) (by
        intro holds
        simp only [Bool.and_eq_true, decide_eq_true_eq] at holds
        have front := front_of_overlap holds.1 holds.2
        exact ⟨front.1, front.2 overlaps⟩)
    obtain ⟨backInv, backGrants⟩ := frontInv.insert_if (dmi.setStartAddress (r.last + 1))
      (r.last ≠ BitVec.allOnes 64 && r.last + 1 < dmi.last) (by
        intro holds
        simp only [Bool.and_eq_true, decide_eq_true_eq] at holds
        have back := back_of_overlap proper holds.1 holds.2
        exact ⟨back.1, back.2 overlaps⟩)
    refine ⟨backInv, backGrants.trans ?_⟩
    exact Set.union_subset frontGrants Set.subset_union_right
  · rw [if_pos (by simp [overlaps])]
    refine ⟨inv.insert proper, (inv.insert_grants proper).trans ?_⟩
    rw [Set.union_comm]
    apply Set.union_subset_union_right
    intro grant granted
    refine ⟨granted, ?_⟩
    obtain ⟨inside, _⟩ := TlmDmi.mem_grants.mp granted
    rw [AddressRange.overlaps_iff] at overlaps
    rw [Bool.eq_false_iff, ne_eq, AddressRange.includesAddr_iff]
    rw [AddressRange.includesAddr_iff] at inside
    omega

/-- The rounds of the invalidation, by induction on the entries that are left. -/
theorem Invariant.foldl_invalidateEntry (r : AddressRange) (entries : List TlmDmi)
    (proper : ∀ dmi ∈ entries, dmi.Proper) {cache : TlmDmiCache} (inv : cache.Invariant)
    : (entries.foldl (TlmDmiCache.invalidateEntry r) cache).Invariant
      ∧ (entries.foldl (TlmDmiCache.invalidateEntry r) cache).grants
        ⊆ cache.grants ∪ outside r (MergingCache.cover TlmDmi.grants entries) := by
  induction entries generalizing cache with
  | nil => exact ⟨inv, Set.subset_union_left⟩
  | cons dmi rest ih =>
      obtain ⟨head, tail⟩ := List.forall_mem_cons.mp proper
      obtain ⟨next, step⟩ := inv.invalidateEntry head r
      obtain ⟨final, rounds⟩ := ih tail next
      refine ⟨final, rounds.trans ?_⟩
      rintro grant (granted | granted)
      · rcases step granted with before | fromHead
        · exact .inl before
        · exact .inr ⟨by rw [MergingCache.cover_cons]; exact .inl fromHead.1, fromHead.2⟩
      · exact .inr ⟨by rw [MergingCache.cover_cons]; exact .inr granted.1, granted.2⟩

/-- An invalidation keeps the invariant, and grants nothing new and nothing in the range. -/
theorem Invariant.invalidate (inv : cache.Invariant) (r : AddressRange)
    : (cache.invalidate r).2.Invariant
      ∧ (cache.invalidate r).2.grants ⊆ outside r cache.grants := by
  have proper : ∀ dmi ∈ cache.entries.reverse, dmi.Proper := by
    intro dmi mem
    exact inv.proper dmi (List.mem_reverse.mp mem)
  obtain ⟨final, sub⟩ := Invariant.foldl_invalidateEntry r cache.entries.reverse proper
    (Invariant.empty cache.limit)
  refine ⟨final, sub.trans ?_⟩
  rw [grants_empty, Set.empty_union, MergingCache.cover_perm (List.reverse_perm cache.entries)]
  rfl

/-- Swapping two entries only changes the order. -/
theorem swapFront_perm (entries : List TlmDmi) (i : Nat) : (swapFront entries i).Perm entries := by
  unfold swapFront
  split
  · next dmi front atI atFront =>
      obtain ⟨inI, rfl⟩ := List.getElem?_eq_some_iff.mp atI
      obtain ⟨inFront, rfl⟩ := List.getElem?_eq_some_iff.mp atFront
      exact List.set_set_perm inI inFront
  · exact .rfl

/-- A cache with the same entries in another order. -/
theorem Invariant.perm (inv : cache.Invariant) {entries : List TlmDmi}
    (perm : entries.Perm cache.entries)
    : ({ cache with entries } : TlmDmiCache).Invariant
      ∧ ({ cache with entries } : TlmDmiCache).grants = cache.grants := by
  refine ⟨⟨?_, ?_, ?_⟩, MergingCache.cover_perm perm⟩
  · intro dmi mem
    exact inv.proper dmi (perm.mem_iff.mp mem)
  · refine (perm.pairwise_iff ?_).mpr inv.apart
    intro first second apart
    rw [TlmDmi.isMergeable_symm, apart]
  · rw [perm.length_eq]
    exact inv.bounded

/-- A lookup forgets nothing. -/
theorem Invariant.lookup (inv : cache.Invariant) (r : AddressRange) (rwx : VcmlAccess)
    : (cache.lookup r rwx).2.Invariant ∧ (cache.lookup r rwx).2.grants = cache.grants := by
  unfold TlmDmiCache.lookup
  split
  · next i found => exact inv.perm (swapFront_perm cache.entries i)
  · exact ⟨inv, rfl⟩

/-- A lookup answers with an entry that includes the range and allows the access. -/
theorem mem_of_lookup (cache : TlmDmiCache) (dmi : TlmDmi) (r : AddressRange) (rwx : VcmlAccess)
    (found : (cache.lookup r rwx).1 = some dmi)
    : dmi ∈ cache.entries ∧ dmi.range.includes r = true ∧ dmi.checkAccess rwx = true := by
  unfold TlmDmiCache.lookup at found
  split at found
  · next i index =>
      obtain ⟨bound, rfl⟩ := List.getElem?_eq_some_iff.mp found
      obtain ⟨_, holds, _⟩ := List.findIdx?_eq_some_iff_getElem.mp index
      rw [Bool.and_eq_true] at holds
      exact ⟨List.getElem_mem bound, holds⟩
  · cases found

/-- A lookup misses only when no entry fits. -/
theorem lookup_eq_none {r : AddressRange} {rwx : VcmlAccess}
    (missed : (cache.lookup r rwx).1 = none)
    : ∀ dmi ∈ cache.entries, dmi.range.includes r = true → dmi.checkAccess rwx = false := by
  unfold TlmDmiCache.lookup at missed
  split at missed
  · next i index =>
      obtain ⟨bound, _⟩ := List.findIdx?_eq_some_iff_getElem.mp index
      rw [List.getElem?_eq_getElem bound] at missed
      cases missed
  · next index =>
      intro dmi mem includes
      have fails := List.findIdx?_eq_none_iff.mp index dmi mem
      rwa [includes, Bool.true_and] at fails

end TlmDmiCache

end VcmlPydrofoil
