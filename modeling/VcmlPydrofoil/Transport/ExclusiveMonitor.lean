import VcmlPydrofoil.Model.ExclusiveMonitor
import VcmlPydrofoil.Transport.DmiCache

/-! What the exclusive monitor does to transactions and windows. A transaction that is not exclusive
passes every monitor; a window that the monitor lets pass keeps the requested address and contains
no locked one.
-/

namespace VcmlPydrofoil

namespace TlmExmon

-----------------------------------------------------------------------------------------
-- Windows
-----------------------------------------------------------------------------------------

/-- A part of a window around an address: what it grants was granted before. -/
structure Restricts (address : BitVec 64) (dmi restricted : TlmDmi) : Prop where
  around : restricted.range.includesAddr address = true
  last : restricted.last.toNat ≤ dmi.last.toNat
  grants : restricted.grants ⊆ dmi.grants

/-- A part of a part. -/
theorem Restricts.trans {address : BitVec 64} {first second third : TlmDmi}
    (outer : Restricts address first second) (inner : Restricts address second third)
    : Restricts address first third :=
  ⟨inner.around, inner.last.trans outer.last, inner.grants.trans outer.grants⟩

/-- A window is a part of itself. -/
theorem Restricts.refl {address : BitVec 64} {dmi : TlmDmi}
    (around : dmi.range.includesAddr address = true)
    : Restricts address dmi dmi :=
  ⟨around, le_rfl, Set.Subset.rfl⟩

/-- A later start up to the address. -/
theorem restricts_start {address start : BitVec 64} {dmi : TlmDmi}
    (around : dmi.range.includesAddr address = true) (later : dmi.start.toNat ≤ start.toNat)
    (before : start.toNat ≤ address.toNat)
    : Restricts address dmi (dmi.setStartAddress start) := by
  have bounds := AddressRange.includesAddr_iff.mp around
  refine ⟨AddressRange.includesAddr_iff.mpr ⟨before, bounds.2⟩, le_rfl, ?_⟩
  intro grant granted
  obtain ⟨inside, pointer, terms⟩ := TlmDmi.mem_grants.mp granted
  rw [AddressRange.includesAddr_iff] at inside
  rw [TlmDmi.getPtr_setStartAddress] at pointer
  exact TlmDmi.mem_grants.mpr
    ⟨AddressRange.includesAddr_iff.mpr ⟨later.trans inside.1, inside.2⟩, pointer, terms⟩

/-- An earlier end from the address on. -/
theorem restricts_last {address last : BitVec 64} {dmi : TlmDmi}
    (around : dmi.range.includesAddr address = true) (earlier : last.toNat ≤ dmi.last.toNat)
    (behind : address.toNat ≤ last.toNat)
    : Restricts address dmi { dmi with last } := by
  have bounds := AddressRange.includesAddr_iff.mp around
  refine ⟨AddressRange.includesAddr_iff.mpr ⟨bounds.1, behind⟩, earlier, ?_⟩
  intro grant granted
  obtain ⟨inside, pointer, terms⟩ := TlmDmi.mem_grants.mp granted
  rw [AddressRange.includesAddr_iff] at inside
  exact TlmDmi.mem_grants.mpr
    ⟨AddressRange.includesAddr_iff.mpr ⟨inside.1, inside.2.trans earlier⟩, pointer, terms⟩

/-- The window has no address of the lock. -/
def Avoids (dmi : TlmDmi) (lock : Exlock) : Prop :=
  ∀ addr, dmi.range.includesAddr addr = true → lock.addr.includesAddr addr = false

/-- A part of a window avoids what the window avoids. -/
theorem Restricts.avoids {address : BitVec 64} {dmi restricted : TlmDmi} {lock : Exlock}
    (part : Restricts address dmi restricted) (avoids : Avoids dmi lock)
    : Avoids restricted lock := by
  intro addr inside
  exact avoids addr (part.grants (TlmDmi.grantAt_mem inside)).1

/-- The first half of a round, for a lock before the address. -/
theorem restricts_lock_before {address : BitVec 64} {dmi : TlmDmi} (lock : Exlock)
    (around : dmi.range.includesAddr address = true)
    : ∃ next,
        (if lock.addr.last < address && dmi.start ≤ lock.addr.last then
          dmi.setStartAddress (lock.addr.last + 1)
        else dmi) = next
        ∧ Restricts address dmi next
        ∧ (lock.addr.last.toNat < address.toNat → Avoids next lock) := by
  refine ⟨_, rfl, ?_⟩
  split
  · next holds =>
      simp only [Bool.and_eq_true, decide_eq_true_eq, BitVec.lt_def, BitVec.le_def] at holds
      have after : (lock.addr.last + 1).toNat = lock.addr.last.toNat + 1 := by bv_omega
      refine ⟨restricts_start around (by omega) (by omega), ?_⟩
      intro _ addr inside
      rw [AddressRange.includesAddr_iff] at inside
      simp only [TlmDmi.range, TlmDmi.setStartAddress, after] at inside
      rw [Bool.eq_false_iff, ne_eq, AddressRange.includesAddr_iff]
      omega
  · next fails =>
      simp only [Bool.and_eq_true, decide_eq_true_eq, BitVec.lt_def, BitVec.le_def] at fails
      refine ⟨.refl around, ?_⟩
      intro before addr inside
      rw [AddressRange.includesAddr_iff] at inside
      simp only [TlmDmi.range] at inside
      rw [Bool.eq_false_iff, ne_eq, AddressRange.includesAddr_iff]
      omega

/-- One round takes the lock out of the window, on whichever side of the address it is. -/
theorem restrictDmi_restricts {address : BitVec 64} {dmi : TlmDmi} {lock : Exlock}
    (around : dmi.range.includesAddr address = true)
    (unlocked : lock.addr.includesAddr address = false)
    : Restricts address dmi (restrictDmi address dmi lock)
      ∧ Avoids (restrictDmi address dmi lock) lock := by
  obtain ⟨next, same, first, avoidsBefore⟩ := restricts_lock_before lock around
  unfold restrictDmi
  simp only [same]
  rw [Bool.eq_false_iff, ne_eq, AddressRange.includesAddr_iff] at unlocked
  split
  · next holds =>
      simp only [Bool.and_eq_true, decide_eq_true_eq, gt_iff_lt, ge_iff_le, BitVec.lt_def,
        BitVec.le_def] at holds
      have before : (lock.addr.start - 1).toNat = lock.addr.start.toNat - 1 := by bv_omega
      refine ⟨first.trans (restricts_last first.around (by omega) (by omega)), ?_⟩
      intro addr inside
      rw [AddressRange.includesAddr_iff] at inside
      simp only [TlmDmi.range, before] at inside
      rw [Bool.eq_false_iff, ne_eq, AddressRange.includesAddr_iff]
      omega
  · next fails =>
      simp only [Bool.and_eq_true, decide_eq_true_eq, gt_iff_lt, ge_iff_le, BitVec.lt_def,
        BitVec.le_def] at fails
      refine ⟨first, ?_⟩
      by_cases before : lock.addr.last.toNat < address.toNat
      · exact avoidsBefore before
      · intro addr inside
        rw [AddressRange.includesAddr_iff] at inside
        simp only [TlmDmi.range] at inside
        rw [Bool.eq_false_iff, ne_eq, AddressRange.includesAddr_iff]
        omega

/-- The rounds of `override_dmi`, by induction on the locks. -/
theorem foldl_restrictDmi (locks : TlmExmon) {address : BitVec 64} {dmi : TlmDmi}
    (around : dmi.range.includesAddr address = true)
    (unlocked : ∀ lock ∈ locks, lock.addr.includesAddr address = false)
    : Restricts address dmi (locks.foldl (restrictDmi address) dmi)
      ∧ ∀ lock ∈ locks, Avoids (locks.foldl (restrictDmi address) dmi) lock := by
  induction locks generalizing dmi with
  | nil => exact ⟨.refl around, by simp⟩
  | cons lock rest ih =>
      obtain ⟨head, tail⟩ := List.forall_mem_cons.mp unlocked
      obtain ⟨first, avoids⟩ := restrictDmi_restricts around head
      obtain ⟨rounds, others⟩ := ih first.around tail
      exact ⟨first.trans rounds, List.forall_mem_cons.mpr ⟨rounds.avoids avoids, others⟩⟩

/-- A window that passes the monitor is a part of the window before, around the address of the
transaction and without locked addresses.
-/
theorem overrideDmi_restricts {locks : TlmExmon} {tx : TlmPayload} {dmi passed : TlmDmi}
    (around : dmi.range.includesAddr tx.address = true)
    (passes : locks.overrideDmi tx dmi = some passed)
    : Restricts tx.address dmi passed ∧ ∀ lock ∈ locks, Avoids passed lock := by
  unfold overrideDmi at passes
  split at passes
  · cases passes
  · next free =>
      obtain rfl := Option.some.inj passes
      apply foldl_restrictDmi locks around
      intro lock mem
      simpa using List.any_eq_false.mp (Bool.eq_false_iff.mpr free) lock mem

-----------------------------------------------------------------------------------------
-- Transactions
-----------------------------------------------------------------------------------------

/-- A transaction that is not exclusive proceeds; a write breaks the locks it overlaps. -/
theorem update_plain {locks : TlmExmon} {tx : TlmPayload} (plain : tx.sbi.isExcl = false)
    : locks.update tx
      = (true,
          {
            tx with
            isDmiAllowed := tx.isDmiAllowed && !locks.any (fun lock => lock.addr.overlaps tx.range)
          },
          if tx.command = .write then locks.breakLocks tx.range else locks) := by
  obtain ⟨command, address, size, data, allowed, status, ⟨debug, nodmi, excl, cpuid⟩⟩ := tx
  obtain rfl : excl = false := plain
  cases command <;> rfl

/-- The monitor changes nothing of a payload but the permission for DMI and the exclusive flag. -/
theorem update_payload (locks : TlmExmon) (tx : TlmPayload)
    : ∃ allowed excl,
        (locks.update tx).2.1
          = { tx with isDmiAllowed := allowed, sbi := { tx.sbi with isExcl := excl } } :=
  ⟨_, _, rfl⟩

/-- Every lock afterwards was there before, or is that of an exclusive read. -/
theorem mem_of_update {locks : TlmExmon} {tx : TlmPayload} {lock : Exlock}
    (mem : lock ∈ (locks.update tx).2.2)
    : lock ∈ locks
      ∨ tx.sbi.isExcl = true ∧ tx.command = .read
        ∧ lock = { cpu := tx.sbi.cpuid.setWidth 32, addr := tx.range } := by
  obtain ⟨command, address, size, data, allowed, status, sbi⟩ := tx
  cases command with
  | read =>
      rcases excl : sbi.isExcl with _ | _
      · left
        simpa [update, excl] using mem
      · simp only [update, excl, if_true, addLock, breakLocksOf, List.mem_append, List.mem_filter,
          List.mem_singleton] at mem
        rcases mem with ⟨before, _⟩ | new
        · exact .inl before
        · exact .inr ⟨rfl, rfl, new⟩
  | write => exact .inl (List.mem_of_mem_filter mem)
  | ignore => exact .inl mem

/-- Breaking locks that a range does not touch changes nothing. -/
theorem breakLocks_of_disjoint {locks : TlmExmon} {r : AddressRange}
    (disjoint : ∀ lock ∈ locks, lock.addr.overlaps r = false)
    : locks.breakLocks r = locks := by
  apply List.filter_eq_self.mpr
  intro lock mem
  rw [disjoint lock mem]
  rfl

end TlmExmon

end VcmlPydrofoil
