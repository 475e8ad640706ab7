import VcmlPydrofoil.Transport.DmiCache

/-! The DMI cache over any sequence of insertions, invalidations and lookups: it never answers with a
window that was not granted or that was taken back, and it misses no range that its windows grant
on the same terms, because neighbours have been merged.
-/

namespace VcmlPydrofoil

-----------------------------------------------------------------------------------------
-- Terms
-----------------------------------------------------------------------------------------

namespace TlmDmi

/-- Whether an access is allowed depends on the terms of the window only. -/
theorem checkAccess_congr {first second : TlmDmi} (same : first.access = second.access)
    (rwx : VcmlAccess)
    : first.checkAccess rwx = second.checkAccess rwx := by
  cases rwx with
  | none => rfl
  | _ => simp only [checkAccess, isReadAllowed, isWriteAllowed, same]

/-- Windows with the same pointer to one address have the same pointers. -/
theorem getPtr_congr {first second : TlmDmi} {at_addr : BitVec 64}
    (same : first.getPtr at_addr = second.getPtr at_addr) (addr : BitVec 64)
    : first.getPtr addr = second.getPtr addr := by
  have moved (dmi : TlmDmi) : dmi.getPtr addr = dmi.getPtr at_addr + addr - at_addr := by
    simp only [getPtr]
    abel
  rw [moved first, moved second, same]

/-- Windows that grant two neighbouring addresses on the same terms can be merged. -/
theorem mergeable_of_neighbours {first second terms : TlmDmi} {addr : BitVec 64}
    (below : addr.toNat + 1 < 2 ^ 64) (here : terms.grantAt addr ∈ first.grants)
    (next : terms.grantAt (addr + 1) ∈ second.grants)
    : first.Mergeable second := by
  obtain ⟨inside, pointer, access, readLatency, writeLatency⟩ := mem_grants.mp here
  obtain ⟨follows, pointer', access', readLatency', writeLatency'⟩ := mem_grants.mp next
  have after : (addr + 1).toNat = addr.toNat + 1 := by bv_omega
  refine ⟨access.symm.trans access', readLatency.symm.trans readLatency',
    writeLatency.symm.trans writeLatency', ?_, fun other => ?_⟩
  · rw [AddressRange.includesAddr_iff] at inside follows
    simp only [grantAt, range, after] at inside follows
    by_cases meets : second.start.toNat ≤ first.last.toNat
    · left
      rw [AddressRange.overlaps_iff]
      simp only [range]
      omega
    · right
      have starts : second.start = first.last + 1 := by bv_omega
      simp [AddressRange.connects, range, starts]
  · exact (getPtr_congr pointer other).symm.trans (getPtr_congr pointer' other)

end TlmDmi

namespace TlmDmiCache

/-- All addresses of the range are granted on the same terms, which allow the access. -/
def OnSameTerms (granted : Set DmiGrant) (r : AddressRange) (rwx : VcmlAccess) : Prop :=
  ∃ terms : TlmDmi,
    terms.checkAccess rwx = true
    ∧ ∀ addr, r.includesAddr addr = true → terms.grantAt addr ∈ granted

variable {cache : TlmDmiCache} {r : AddressRange} {rwx : VcmlAccess}

/-- A window that is found grants each address of the range. -/
theorem grants_of_lookup {dmi : TlmDmi} (found : (cache.lookup r rwx).1 = some dmi)
    {addr : BitVec 64} (inside : r.includesAddr addr = true)
    : dmi.grantAt addr ∈ cache.grants := by
  obtain ⟨member, includes, _⟩ := mem_of_lookup cache dmi r rwx found
  refine ⟨dmi, member, TlmDmi.grantAt_mem ?_⟩
  simp only [AddressRange.includes, Bool.and_eq_true] at includes
  rw [AddressRange.includesAddr_iff] at inside includes ⊢
  obtain ⟨starts, ends⟩ := includes
  rw [AddressRange.includesAddr_iff] at ends
  omega

/-- A lookup succeeds exactly when the windows grant the whole range on the same terms: a path
through them that leaves one window for another one would pass two that can be merged.
-/
theorem Invariant.lookup_isSome_iff (inv : cache.Invariant) (ordered : r.start ≤ r.last)
    : (cache.lookup r rwx).1.isSome ↔ OnSameTerms cache.grants r rwx := by
  constructor
  · intro hit
    obtain ⟨dmi, found⟩ := Option.isSome_iff_exists.mp hit
    exact ⟨dmi, (mem_of_lookup cache dmi r rwx found).2.2,
      fun addr inside => grants_of_lookup found inside⟩
  · rintro ⟨terms, allowed, granted⟩
    have bound := r.last.isLt
    rw [BitVec.le_def] at ordered
    let path (i : Nat) : DmiGrant := terms.grantAt (r.start + BitVec.ofNat 64 i)
    have place {i : Nat} (within : i ≤ r.last.toNat - r.start.toNat)
        : (r.start + BitVec.ofNat 64 i).toNat = r.start.toNat + i := by
      rw [BitVec.toNat_add, BitVec.toNat_ofNat]
      omega
    have touching
        : ∀ first ∈ cache.entries,
            ∀ second ∈ cache.entries,
              ∀ i < r.last.toNat - r.start.toNat,
                path i ∈ first.grants
                → path (i + 1) ∈ second.grants
                → first.isMergeable second = true ∧ second.isMergeable first = true := by
      intro first _ second _ i within here next
      have follows : r.start + BitVec.ofNat 64 (i + 1) = r.start + BitVec.ofNat 64 i + 1 := by
        rw [BitVec.ofNat_add, ← BitVec.add_assoc]
        rfl
      simp only [path, follows] at here next
      have able := TlmDmi.mergeable_of_neighbours
        (by rw [place (Nat.le_of_lt within)]; omega) here next
      have test := TlmDmi.isMergeable_iff.mpr able
      exact ⟨test, (TlmDmi.isMergeable_symm second first).trans test⟩
    have covered : ∀ i ≤ r.last.toNat - r.start.toNat, path i ∈ cache.grants := by
      intro i within
      apply granted
      rw [AddressRange.includesAddr_iff, place within]
      omega
    obtain ⟨entry, member, inside⟩ := MergingCache.cover_path inv.apart touching covered
    obtain ⟨starts, _, access, _⟩ := TlmDmi.mem_grants.mp (inside 0 (Nat.zero_le _))
    obtain ⟨ends, _⟩ := TlmDmi.mem_grants.mp (inside _ (Nat.le_refl _))
    have includes : entry.range.includes r = true := by
      simp only [AddressRange.includes, Bool.and_eq_true]
      rw [AddressRange.includesAddr_iff] at starts ends ⊢
      rw [AddressRange.includesAddr_iff]
      simp only [path, TlmDmi.grantAt, place (Nat.zero_le _), place (Nat.le_refl _)] at starts ends
      omega
    by_contra missed
    have refused := lookup_eq_none (Option.not_isSome_iff_eq_none.mp missed) entry member includes
    rw [TlmDmi.checkAccess_congr access rwx, refused] at allowed
    exact Bool.false_ne_true allowed

-----------------------------------------------------------------------------------------
-- Every sequence of uses
-----------------------------------------------------------------------------------------

/-- What a socket does with its cache. -/
inductive Use where
  | insert (dmi : TlmDmi)
  | invalidate (r : AddressRange)
  | lookup (r : AddressRange) (rwx : VcmlAccess)
  deriving DecidableEq

namespace Use

/-- The cache after a use. -/
def apply (cache : TlmDmiCache) : Use → TlmDmiCache
  | .insert dmi => cache.insert dmi
  | .invalidate r => (cache.invalidate r).2
  | .lookup r rwx => (cache.lookup r rwx).2

/-- What has been granted and not taken back, after a use. -/
def record (granted : Set DmiGrant) : Use → Set DmiGrant
  | .insert dmi => dmi.grants ∪ granted
  | .invalidate r => outside r granted
  | .lookup _ _ => granted

/-- An insertion. -/
def inserts : Use → Bool
  | .insert _ => true
  | _ => false

end Use

/-- Uses keep the invariant, and the cache grants no more than what is recorded; by induction on the
uses.
-/
theorem Invariant.uses (inv : cache.Invariant) {granted : Set DmiGrant}
    (sound : cache.grants ⊆ granted) {uses : List Use}
    (proper : ∀ dmi, Use.insert dmi ∈ uses → dmi.Proper)
    : (uses.foldl Use.apply cache).Invariant
      ∧ (uses.foldl Use.apply cache).grants ⊆ uses.foldl Use.record granted := by
  induction uses generalizing cache granted with
  | nil => exact ⟨inv, sound⟩
  | cons use rest ih =>
      have later : ∀ dmi, Use.insert dmi ∈ rest → dmi.Proper :=
        fun dmi member => proper dmi (List.mem_cons_of_mem _ member)
      cases use with
      | insert dmi =>
          have first := proper dmi List.mem_cons_self
          exact ih (inv.insert first)
            ((inv.insert_grants first).trans (Set.union_subset_union_right _ sound)) later
      | invalidate r =>
          obtain ⟨next, left⟩ := inv.invalidate r
          exact ih next (left.trans fun grant kept => ⟨sound kept.1, kept.2⟩) later
      | lookup r rwx =>
          obtain ⟨next, same⟩ := inv.lookup r rwx
          exact ih next (same.subset.trans sound) later

/-- An insertion adds one entry at most. -/
theorem length_insert_le (cache : TlmDmiCache) (dmi : TlmDmi)
    : (cache.insert dmi).entries.length ≤ cache.entries.length + 1 := by
  refine Nat.le_trans (List.length_take_le' _ _) ?_
  exact MergingCache.length_absorb_le cache.entries.length

/-- A lookup keeps the number of entries. -/
theorem length_lookup (cache : TlmDmiCache) (r : AddressRange) (rwx : VcmlAccess)
    : (cache.lookup r rwx).2.entries.length = cache.entries.length
      ∧ (cache.lookup r rwx).2.limit = cache.limit := by
  unfold TlmDmiCache.lookup
  split
  · next i found => exact ⟨(swapFront_perm cache.entries i).length_eq, rfl⟩
  · exact ⟨rfl, rfl⟩

/-- Without invalidations, and with room for all insertions, nothing is forgotten; by induction on
the uses.
-/
theorem Invariant.uses_eq (inv : cache.Invariant) {granted : Set DmiGrant}
    (all : cache.grants = granted) {uses : List Use}
    (proper : ∀ dmi, Use.insert dmi ∈ uses → dmi.Proper)
    (kept : ∀ r, Use.invalidate r ∉ uses)
    (room : cache.entries.length + uses.countP Use.inserts ≤ cache.limit)
    : (uses.foldl Use.apply cache).grants = uses.foldl Use.record granted := by
  induction uses generalizing cache granted with
  | nil => exact all
  | cons use rest ih =>
      have later : ∀ dmi, Use.insert dmi ∈ rest → dmi.Proper :=
        fun dmi member => proper dmi (List.mem_cons_of_mem _ member)
      have still : ∀ r, Use.invalidate r ∉ rest :=
        fun r member => kept r (List.mem_cons_of_mem _ member)
      cases use with
      | insert dmi =>
          have first := proper dmi List.mem_cons_self
          have count : (Use.insert dmi :: rest).countP Use.inserts = rest.countP Use.inserts + 1 :=
            List.countP_cons_of_pos rfl
          have grown := length_insert_le cache dmi
          have limit : (cache.insert dmi).limit = cache.limit := rfl
          refine ih (inv.insert first) ?_ later still (by omega)
          rw [inv.insert_grants_eq first (by omega), all]
          rfl
      | invalidate r => exact absurd List.mem_cons_self (kept r)
      | lookup r rwx =>
          obtain ⟨next, same⟩ := inv.lookup r rwx
          obtain ⟨length, limit⟩ := length_lookup cache r rwx
          have count
              : (Use.lookup r rwx :: rest).countP Use.inserts = rest.countP Use.inserts :=
            List.countP_cons_of_neg Bool.false_ne_true
          exact ih next (same.trans all) later still (by omega)

/-- The cache after any uses: what a lookup answers with was granted for the whole range, allows the
access and has not been taken back since; it answers exactly when the entries grant the range on
the same terms; and without invalidations, below the limit, exactly when this has been granted.
-/
theorem windowCache_correct (limit : Nat) (uses : List Use)
    (proper : ∀ dmi, Use.insert dmi ∈ uses → dmi.Proper) (r : AddressRange)
    (ordered : r.start ≤ r.last) (rwx : VcmlAccess)
    : let cache := uses.foldl Use.apply { limit }
      let granted := uses.foldl Use.record ∅
      (∀ dmi,
        (cache.lookup r rwx).1 = some dmi
        → dmi.range.includes r = true
          ∧ dmi.checkAccess rwx = true
          ∧ ∀ addr, r.includesAddr addr = true → dmi.grantAt addr ∈ granted)
      ∧ ((cache.lookup r rwx).1.isSome ↔ OnSameTerms cache.grants r rwx)
      ∧ ((∀ r, Use.invalidate r ∉ uses)
        → uses.countP Use.inserts ≤ limit
        → ((cache.lookup r rwx).1.isSome ↔ OnSameTerms granted r rwx)) := by
  intro cache granted
  have start := Invariant.empty limit
  obtain ⟨inv, sound⟩ := start.uses (grants_empty limit).subset proper
  refine ⟨fun dmi found => ?_, inv.lookup_isSome_iff ordered, fun kept room => ?_⟩
  · obtain ⟨_, includes, allowed⟩ := mem_of_lookup cache dmi r rwx found
    exact ⟨includes, allowed, fun addr inside => sound (grants_of_lookup found inside)⟩
  · have all := start.uses_eq (grants_empty limit) proper kept (by simpa using room)
    rw [inv.lookup_isSome_iff ordered, all]

/-- Two windows that touch, for reading and writing, and one behind them for reading only. -/
def neighbours : List Use :=
  [
    .insert { ptr := 0x7000, start := 0x1000, last := 0x1fff, access := .readWrite },
    .insert { ptr := 0x9000, start := 0x3000, last := 0x3fff, access := .read },
    .insert { ptr := 0x8000, start := 0x2000, last := 0x2fff, access := .readWrite }
  ]

/-- Witness: a range in both windows is found, and taken back by an invalidation of one byte. -/
theorem windowCache_correct_neighbours
    : let cache := neighbours.foldl Use.apply { limit := 16 }
      let r : AddressRange := { start := 0x1ffc, last := 0x2003 }
      OnSameTerms cache.grants r .write
      ∧ ¬ OnSameTerms (Use.apply cache (.invalidate { start := 0x2000, last := 0x2000 })).grants r
        .write := by
  intro cache r
  have proper : ∀ dmi, Use.insert dmi ∈ neighbours → dmi.Proper := by
    intro dmi member
    simp only [neighbours, List.mem_cons, Use.insert.injEq, List.not_mem_nil, or_false] at member
    rcases member with rfl | rfl | rfl
    · constructor <;> decide
    · constructor <;> decide
    · constructor <;> decide
  constructor
  · exact (windowCache_correct 16 neighbours proper r (by decide) .write).2.1.mp (by decide)
  · have more : ∀ dmi, Use.insert dmi ∈ neighbours ++ [.invalidate { start := 0x2000, last := 0x2000 }]
        → dmi.Proper := by
      intro dmi member
      refine proper dmi ((List.mem_append.mp member).resolve_right ?_)
      simp
    refine mt (windowCache_correct 16 _ more r (by decide) .write).2.1.mpr ?_
    decide

end TlmDmiCache

end VcmlPydrofoil
