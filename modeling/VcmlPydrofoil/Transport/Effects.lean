import VcmlPydrofoil.Transport.Transactions

/-! What transactions, requests for windows and resets do to the windows of the initiators. An
exclusive read locks a range only after all windows have lost it, and a new window keeps off every
lock, so the invariant of memory systems is kept.
-/

namespace VcmlPydrofoil

/-- The transaction is an exclusive read, which locks its range. -/
def TlmPayload.Locks (tx : TlmPayload) : Prop :=
  tx.sbi.isExcl = true ∧ tx.command = .read

namespace MemorySystem

variable {s : MemorySystem}

-----------------------------------------------------------------------------------------
-- Invalidation
-----------------------------------------------------------------------------------------

/-- A socket that was told to invalidate ranges has no window with an address in one of them, by
induction on the ranges.
-/
theorem foldl_unmapDmi_grants (ranges : List AddressRange) {socket : TlmInitiatorSocket}
    {cache : TlmDmiCache} (left : (ranges.foldl .unmapDmi socket).dmiCache = some cache)
    : ∃ before,
        socket.dmiCache = some before
        ∧ (before.Invariant
          → cache.Invariant
            ∧ cache.grants ⊆ before.grants
            ∧ ∀ grant ∈ cache.grants, ∀ r ∈ ranges, r.includesAddr grant.address = false) := by
  induction ranges generalizing socket with
  | nil => exact ⟨cache, left, fun inv => ⟨inv, Set.Subset.rfl, by simp⟩⟩
  | cons r rest ih =>
      obtain ⟨middle, cached, later⟩ := ih left
      obtain ⟨before, was, rfl⟩ := Option.map_eq_some_iff.mp cached
      refine ⟨before, was, ?_⟩
      intro inv
      obtain ⟨middleInv, outside⟩ := inv.invalidate r
      obtain ⟨finalInv, sub, others⟩ := later middleInv
      refine ⟨finalInv, fun grant granted => (outside (sub granted)).1, ?_⟩
      intro grant granted
      exact List.forall_mem_cons.mpr ⟨(outside (sub granted)).2, others grant granted⟩

/-- The invalidation of a range of a memory reaches each address that a mapping puts there. -/
theorem invalidations_cover {target : Nat} {m : Mapping} {memory : GenericMemory}
    {r : AddressRange} {addr : BitVec 64} (mapped : m ∈ s.mappings) (targets : m.target = target)
    (fits : m.Fits memory) (inside : m.addr.includesAddr addr = true)
    (invalidated : r.includesAddr (addr - m.addr.start) = true)
    : ∃ range ∈ s.invalidations target r, range.includesAddr addr = true := by
  have moved := local_address inside
  have ordered := fits.ordered
  have within := fits.within
  have below := fits.below
  rw [AddressRange.includesAddr_iff] at inside invalidated
  have length : m.addr.length.toNat = m.addr.last.toNat - m.addr.start.toNat + 1 := by
    unfold AddressRange.length
    bv_omega
  have start : (if r.start > m.offset then r.start - m.offset else 0) = r.start := by
    rw [fits.offset]
    split <;> bv_omega
  have last : (if r.last ≠ BitVec.allOnes 64 then r.last - m.offset else r.last) = r.last := by
    rw [fits.offset]
    split <;> simp
  have notBefore : ¬ r.last < m.offset := by
    rw [fits.offset]
    bv_omega
  have notBehind : ¬ r.start ≥ m.addr.length := by
    rw [ge_iff_le, BitVec.le_def]
    omega
  have passedOn
      : invalidationOf target r.start r.last m
        = some {
          start := r.start + m.addr.start
          last := (if r.last ≥ m.addr.length then m.addr.length - 1 else r.last) + m.addr.start
        } := by
    unfold invalidationOf
    rw [if_neg (not_not_intro targets), if_neg notBefore]
    simp only [start, last, if_neg notBehind]
  refine ⟨_, List.mem_filterMap.mpr ⟨m, mapped, passedOn⟩, ?_⟩
  rw [AddressRange.includesAddr_iff]
  have first : (r.start + m.addr.start).toNat = r.start.toNat + m.addr.start.toNat := by bv_omega
  refine ⟨by simp only [first]; omega, ?_⟩
  simp only [ge_iff_le, BitVec.le_def]
  split
  · bv_omega
  · have final : (r.last + m.addr.start).toNat = r.last.toNat + m.addr.start.toNat := by bv_omega
    omega

-----------------------------------------------------------------------------------------
-- Transactions
-----------------------------------------------------------------------------------------

/-- The bus and the memories are the same but for the locks of their monitors. -/
structure Stable (s next : MemorySystem) : Prop where
  mappings : next.mappings = s.mappings
  memories
    : ∀ target, ∃ exmon,
        next.memories target
        = { s.memories target with socket := { (s.memories target).socket with exmon } }

theorem Stable.of_same {next : MemorySystem} (mappings : next.mappings = s.mappings)
    (memories : next.memories = s.memories)
    : s.Stable next :=
  ⟨mappings, fun target => ⟨(s.memories target).socket.exmon, by rw [memories]⟩⟩

theorem Stable.trans {first second third : MemorySystem} (before : first.Stable second)
    (after : second.Stable third)
    : first.Stable third := by
  refine ⟨after.mappings.trans before.mappings, ?_⟩
  intro target
  obtain ⟨_, same⟩ := before.memories target
  obtain ⟨exmon, again⟩ := after.memories target
  exact ⟨exmon, by rw [again, same]⟩

/-- What a transaction of an initiator does to monitors and windows. Locks are old ones or the
range of an exclusive read; no window gets wider, and after an exclusive read none reaches what
the mapping of the range, or another mapping of the same memory, puts at the locked place.
-/
structure Effect (s : MemorySystem) (j : Nat) (tx : TlmPayload) (next : MemorySystem) : Prop where
  stable : s.Stable next
  portLocks
    : ∀ i, ∀ lock ∈ (next.ports i).exmon,
        lock ∈ (s.ports i).exmon ∨ i = j ∧ tx.Locks ∧ lock.addr = tx.range
  memoryLocks
    : ∀ target, ∀ lock ∈ (next.memories target).socket.exmon,
        lock ∈ (s.memories target).socket.exmon
        ∨ tx.Locks
          ∧ ∃ m ∈ s.mappings,
              m.target = target
              ∧ m.addr.includes tx.range = true
              ∧ lock.addr = .ofAccess (tx.address - m.addr.start + m.offset) tx.size
  windows
    : ∀ i cache, (next.initiators i).dmiCache = some cache
        → ∃ before,
            (s.initiators i).dmiCache = some before
            ∧ (before.Invariant → cache.Invariant ∧ cache.grants ⊆ before.grants)
  invalidated
    : tx.Locks
      → ∀ m ∈ s.mappings, m.addr.includes tx.range = true
      → (s.memories m.target).socket.allowDmi = true
      → ∀ i cache before,
          (next.initiators i).dmiCache = some cache
          → (s.initiators i).dmiCache = some before
          → before.Invariant
          → ∀ grant ∈ cache.grants, ∀ other ∈ s.mappings,
              other.target = m.target
              → other.addr.includesAddr grant.address = true
              → (AddressRange.ofAccess (tx.address - m.addr.start + m.offset) tx.size).includesAddr
                  (grant.address - other.addr.start) = false

/-- A monitor lets exclusive reads proceed as such, and makes no other transaction one. -/
theorem locks_of_update (locks : TlmExmon) (tx : TlmPayload)
    : ((locks.update tx).2.1.Locks ↔ tx.Locks) ∧ (tx.Locks → (locks.update tx).1 = true) := by
  obtain ⟨command, address, size, data, allowed, status, sbi⟩ := tx
  unfold TlmPayload.Locks TlmExmon.update
  cases command <;> cases sbi.isExcl <;> simp

/-- The locks of the ports after one of them has changed. -/
theorem setPort_locks {j : Nat} {exmon : TlmExmon} {new : Exlock → Prop}
    (locks : ∀ lock ∈ exmon, lock ∈ (s.ports j).exmon ∨ new lock)
    : ∀ i, ∀ lock ∈ ((s.setPort j { s.ports j with exmon }).ports i).exmon,
        lock ∈ (s.ports i).exmon ∨ i = j ∧ new lock := by
  intro i lock mem
  by_cases same : i = j
  · subst same
    simp only [setPort, Function.update_self] at mem
    exact (locks lock mem).imp_right fun isNew => ⟨rfl, isNew⟩
  · simp only [setPort, Function.update_of_ne same] at mem
    exact .inl mem

/-- The locks and the rest of the memories after the monitor of one of them has changed. -/
theorem setSocket_locks {target : Nat} {exmon : TlmExmon} (new : Exlock → Prop)
    (locks : ∀ lock ∈ exmon, lock ∈ (s.memories target).socket.exmon ∨ new lock)
    : ∀ t,
        (∃ exmon',
          (s.setSocket target { (s.memories target).socket with exmon }).memories t
          = { s.memories t with socket := { (s.memories t).socket with exmon := exmon' } })
        ∧ ∀ lock ∈ ((s.setSocket target { (s.memories target).socket with exmon }).memories
              t).socket.exmon,
            lock ∈ (s.memories t).socket.exmon ∨ t = target ∧ new lock := by
  intro t
  by_cases same : t = target
  · subst same
    simp only [setSocket, Function.update_self]
    exact ⟨⟨exmon, rfl⟩, fun lock mem => (locks lock mem).imp_right fun isNew => ⟨trivial, isNew⟩⟩
  · simp only [setSocket, Function.update_of_ne same]
    exact ⟨⟨(s.memories t).socket.exmon, rfl⟩, fun lock mem => .inl mem⟩

/-- A transaction that stops at the monitor of the port. -/
theorem setPort_effect (s : MemorySystem) (j : Nat) (tx : TlmPayload) {exmon : TlmExmon}
    (locks
      : ∀ lock ∈ exmon, lock ∈ (s.ports j).exmon ∨ tx.Locks ∧ lock.addr = tx.range)
    (stops
      : tx.Locks → ∀ m ∈ s.mappings, m.addr.includes tx.range = true
        → (s.memories m.target).socket.allowDmi = true → False)
    : Effect s j tx (s.setPort j { s.ports j with exmon }) where
  stable := .of_same rfl rfl
  portLocks := setPort_locks locks
  memoryLocks _ _ mem := .inl mem
  windows i cache cached := ⟨cache, cached, fun inv => ⟨inv, Set.Subset.rfl⟩⟩
  invalidated := by
    intro locks m mapped includes allowed
    exact absurd allowed (stops locks m mapped includes)

/-- The socket of a memory finds its window for an exclusive read through a mapping. -/
theorem socketLookup_isSome {m : Mapping} {memory : GenericMemory} (regular : memory.Regular)
    (fits : m.Fits memory) (allowed : memory.socket.allowDmi = true) {tx : TlmPayload} (inner : TlmPayload)
    (includes : m.addr.includes tx.range = true)
    (address : inner.address = tx.address - m.addr.start + m.offset) (size : inner.size = tx.size)
    (read : inner.command = .read)
    : (socketLookup memory.socket inner).1.isSome = true := by
  have ends := AddressRange.includes_iff_ends.mp includes
  have lower := local_address ends.1
  have upper := local_address ends.2
  have within := fits.within
  rw [AddressRange.includesAddr_iff, AddressRange.includesAddr_iff] at ends
  have inside : memory.memory.dmi.range.includes inner.range = true := by
    rw [TlmPayload.range, address, size, local_range fits, AddressRange.includes_iff_ends]
    simp only [AddressRange.includesAddr_iff, TlmDmi.range, regular.start]
    rw [show (AddressRange.ofAccess tx.address tx.size).start - m.addr.start
      = tx.range.start - m.addr.start from rfl, show (AddressRange.ofAccess tx.address tx.size).last
      - m.addr.start = tx.range.last - m.addr.start from rfl, lower, upper]
    exact ⟨⟨Nat.zero_le _, by omega⟩, Nat.zero_le _, by omega⟩
  rw [socketLookup_regular regular, allowed, inside, read]
  simp [tlmCommandToAccess, TlmDmi.checkAccess, regular.readable]

/-- What a transaction does to monitors and windows. -/
theorem portTransport_effect (wf : s.WellFormed) {j : Nat} {tx : TlmPayload}
    {done : Transported} (transported : s.portTransport j tx = some done)
    : Effect s j tx done.system := by
  have locksIff := locks_of_update (s.ports j).exmon { tx with isDmiAllowed := false }
  have portMem
      : ∀ lock ∈ ((s.ports j).exmon.update { tx with isDmiAllowed := false }).2.2,
          lock ∈ (s.ports j).exmon ∨ tx.Locks ∧ lock.addr = tx.range := by
    intro lock mem
    rcases TlmExmon.mem_of_update mem with old | ⟨excl, read, rfl⟩
    · exact .inl old
    · exact .inr ⟨⟨excl, read⟩, rfl⟩
  obtain ⟨isDmiAllowed, isExcl, payload⟩ :=
    TlmExmon.update_payload (s.ports j).exmon { tx with isDmiAllowed := false }
  unfold portTransport at transported
  generalize (s.ports j).exmon.update { tx with isDmiAllowed := false } = updated
    at transported locksIff portMem payload
  obtain ⟨proceed, next, exmon⟩ := updated
  simp only at transported locksIff portMem payload
  split at transported
  · next proceeds =>
      unfold busTransport at transported
      have range : next.range = tx.range := by rw [payload]; rfl
      have command : next.command = tx.command := by rw [payload]
      rw [range] at transported
      cases routed : lookupMapping s.mappings tx.range with
      | none =>
          rw [show (s.setPort j { s.ports j with exmon }).mappings = s.mappings from rfl, routed]
            at transported
          obtain rfl := Option.some.inj transported
          apply setPort_effect s j tx portMem
          intro _ m mapped includes _
          exact List.find?_eq_none.mp routed m mapped includes
      | some m =>
          rw [show (s.setPort j { s.ports j with exmon }).mappings = s.mappings from rfl, routed]
            at transported
          have mapped : m ∈ s.mappings := List.mem_of_find?_eq_some routed
          have includes := List.find?_some routed
          simp only at transported
          obtain ⟨inside, atMemory, rfl⟩ := Option.map_eq_some_iff.mp transported
          obtain ⟨host, system⟩ := socketTransport_system (s := s.setPort j { s.ports j with exmon })
            (wf.regular m mapped) atMemory
          have socketMem
              : ∀ lock ∈ ((s.memories m.target).socket.exmon.update
                    { next with address := next.address - m.addr.start + m.offset }).2.2,
                  lock ∈ (s.memories m.target).socket.exmon
                  ∨ tx.Locks
                    ∧ lock.addr = .ofAccess (tx.address - m.addr.start + m.offset) tx.size := by
            intro lock mem
            rcases TlmExmon.mem_of_update mem with old | ⟨excl, read, rfl⟩
            · exact .inl old
            · exact .inr ⟨locksIff.1.mp ⟨excl, read⟩, by rw [payload]; rfl⟩
          have sockets := setSocket_locks (s := s) _ socketMem
          simp only
          rw [system]
          exact {
            stable := ⟨rfl, fun target => (sockets target).1⟩
            portLocks := setPort_locks portMem
            memoryLocks := by
              intro target lock mem
              rcases (sockets target).2 lock mem with old | ⟨rfl, locks, addr⟩
              · exact .inl old
              · exact .inr ⟨locks, m, mapped, rfl, includes, addr⟩
            windows := by
              intro i cache cached
              simp only at cached
              split at cached
              · obtain ⟨before, was, kept⟩ := foldl_unmapDmi_grants _ cached
                exact ⟨before, was, fun inv => ⟨(kept inv).1, (kept inv).2.1⟩⟩
              · exact ⟨cache, cached, fun inv => ⟨inv, Set.Subset.rfl⟩⟩
            invalidated := by
              intro locks same sameMapped sameIncludes allowed i cache before cached was inv grant
                granted other otherMapped targets inside
              obtain rfl := wf.unique sameMapped mapped
                (AddressRange.includes_iff_ends.mp sameIncludes).1
                (AddressRange.includes_iff_ends.mp includes).1
              have fits := wf.fits same sameMapped
              have read : next.command = .read := by rw [command, locks.2]
              have found := socketLookup_isSome (wf.regular same mapped) fits allowed
                { next with address := next.address - same.addr.start + same.offset } includes
                (by rw [payload]) (by rw [payload]) read
              have excl : next.sbi.isExcl = true := (locksIff.1.mpr locks).1
              have told : (true && (next.sbi.isExcl && next.command == .read)) = true := by
                rw [excl, read]
                rfl
              simp only [show ((s.setPort j { s.ports j with exmon }).memories same.target)
                = s.memories same.target from rfl, found, told, if_true] at cached
              obtain ⟨_, wasToo, kept⟩ := foldl_unmapDmi_grants _ cached
              obtain rfl := Option.some.inj (was.symm.trans wasToo)
              rw [Bool.eq_false_iff]
              intro locked
              obtain ⟨range, invalidated, reaches⟩ := invalidations_cover otherMapped targets
                (targets ▸ wf.fits other otherMapped) inside locked
              have invalidatedToo : range ∈ (s.setPort j { s.ports j with exmon }).invalidations
                  same.target
                  ({ next with address := next.address - same.addr.start + same.offset }
                    : TlmPayload).range := by
                rw [payload]
                exact invalidated
              rw [(kept inv).2.2 grant granted range invalidatedToo] at reaches
              cases reaches
          }
  · next stopped =>
      obtain rfl := Option.some.inj transported
      apply setPort_effect s j tx portMem
      intro locks
      exact absurd (locksIff.2 locks) stopped

-----------------------------------------------------------------------------------------
-- The invariant
-----------------------------------------------------------------------------------------

/-- Monitors may change, the rest of the bus and the memories does not. -/
theorem WellFormed.of_stable (wf : s.WellFormed) {next : MemorySystem} (stable : s.Stable next)
    : next.WellFormed := by
  refine ⟨stable.mappings ▸ wf.apart, ?_, ?_⟩
  · intro m mapped
    rw [stable.mappings] at mapped
    obtain ⟨exmon, same⟩ := stable.memories m.target
    rw [same]
    have fits := wf.fits m mapped
    exact ⟨fits.offset, fits.ordered, fits.within, fits.below⟩
  · intro m mapped
    rw [stable.mappings] at mapped
    obtain ⟨exmon, same⟩ := stable.memories m.target
    rw [same]
    have regular := wf.regular m mapped
    exact ⟨regular.start, regular.size, regular.cache, regular.readable, regular.discard,
      regular.readLatency, regular.writeLatency⟩

/-- A transaction keeps the invariant when each mapping has its whole range or none of it. A window
that is left avoids a new lock at the memory since it was invalidated, and a new lock at the port
since the range of the lock is in one mapping or in none.
-/
theorem Effect.invariant {j : Nat} {tx : TlmPayload} {next : MemorySystem}
    (effect : Effect s j tx next) (inv : s.Invariant)
    (ordered : tx.range.start.toNat ≤ tx.range.last.toNat)
    (undivided
      : ∀ m ∈ s.mappings, m.addr.overlaps tx.range = true → m.addr.includes tx.range = true)
    : next.Invariant where
  wellFormed := inv.wellFormed.of_stable effect.stable
  portLocks := by
    intro i lock mem
    rcases effect.portLocks i lock mem with old | ⟨_, _, addr⟩
    · exact inv.portLocks i lock old
    · rw [addr]
      exact ordered
  memoryLocks := by
    intro target lock mem
    rcases effect.memoryLocks target lock mem with old | ⟨_, m, mapped, _, includes, addr⟩
    · exact inv.memoryLocks target lock old
    · have ends := AddressRange.includes_iff_ends.mp includes
      have lower := local_address ends.1
      have upper := local_address ends.2
      rw [addr, local_range (inv.wellFormed.fits m mapped)]
      show (tx.range.start - m.addr.start).toNat ≤ (tx.range.last - m.addr.start).toNat
      omega
  windows := by
    intro i cache cached
    obtain ⟨before, was, kept⟩ := effect.windows i cache cached
    obtain ⟨beforeInv, beforeGrants⟩ := inv.windows i before was
    obtain ⟨cacheInv, sub⟩ := kept beforeInv
    refine ⟨cacheInv, ?_⟩
    intro grant granted
    obtain ⟨m, grants⟩ := beforeGrants (sub granted)
    obtain ⟨exmon, same⟩ := effect.stable.memories m.target
    refine ⟨m, ?_⟩
    have memory : (next.memories m.target).memory = (s.memories m.target).memory := by rw [same]
    have allowed : (next.memories m.target).socket.allowDmi = true := by
      rw [same]
      exact grants.allowed
    exact {
      mapped := effect.stable.mappings ▸ grants.mapped
      inside := grants.inside
      allowed := allowed
      pointer := by rw [memory]; exact grants.pointer
      access := by rw [memory]; exact grants.access
      readLatency := by rw [memory]; exact grants.readLatency
      writeLatency := by rw [memory]; exact grants.writeLatency
      unlocked := by
        intro lock mem
        rcases effect.memoryLocks m.target lock mem with old | ⟨locks, other, mapped, targets,
          includes, addr⟩
        · exact grants.unlocked lock old
        · rw [addr]
          exact effect.invalidated locks other mapped includes (targets ▸ grants.allowed) i cache
            before cached was beforeInv grant granted m grants.mapped targets.symm grants.inside
      portUnlocked := by
        intro lock mem
        rcases effect.portLocks i lock mem with old | ⟨rfl, locks, addr⟩
        · exact grants.portUnlocked lock old
        · rw [addr, Bool.eq_false_iff]
          intro inside
          have includes := undivided m grants.mapped
            (AddressRange.overlaps_of_common grants.inside inside)
          have outside := effect.invalidated locks m grants.mapped includes grants.allowed i cache
            before cached was beforeInv grant granted m grants.mapped rfl grants.inside
          have ends := AddressRange.includes_iff_ends.mp includes
          have lower := local_address ends.1
          have upper := local_address ends.2
          have moved := local_address grants.inside
          rw [AddressRange.includesAddr_iff] at inside
          rw [local_range (inv.wellFormed.fits m grants.mapped), Bool.eq_false_iff, ne_eq,
            AddressRange.includesAddr_iff] at outside
          apply outside
          show (tx.range.start - m.addr.start).toNat ≤ (grant.address - m.addr.start).toNat
            ∧ (grant.address - m.addr.start).toNat ≤ (tx.range.last - m.addr.start).toNat
          omega
    }

/-- What an initiator may be granted depends on the bus and the memories only. -/
theorem grants_of_same {next : MemorySystem} (mappings : next.mappings = s.mappings)
    (memories : next.memories = s.memories) (ports : next.ports = s.ports)
    {j : Nat} {grant : DmiGrant} {m : Mapping} (grants : s.Grants j grant m)
    : next.Grants j grant m := by
  obtain ⟨initiators, ports', mappings', memories', host⟩ := next
  obtain rfl : mappings' = s.mappings := mappings
  obtain rfl : memories' = s.memories := memories
  obtain rfl : ports' = s.ports := ports
  exact ⟨grants.mapped, grants.inside, grants.allowed, grants.pointer, grants.access,
    grants.readLatency, grants.writeLatency, grants.unlocked, grants.portUnlocked⟩

/-- A change of the initiators or of the host's memory keeps the invariant as long as the windows
grant only what they may.
-/
theorem Invariant.of_windows (inv : s.Invariant) (next : MemorySystem)
    (mappings : next.mappings = s.mappings) (memories : next.memories = s.memories)
    (ports : next.ports = s.ports)
    (windows
      : ∀ j cache, (next.initiators j).dmiCache = some cache
          → cache.Invariant ∧ cache.grants ⊆ s.grantable j)
    : next.Invariant where
  wellFormed :=
    inv.wellFormed.of_stable (.of_same mappings memories)
  windows := by
    intro j cache cached
    obtain ⟨cacheInv, sub⟩ := windows j cache cached
    refine ⟨cacheInv, ?_⟩
    intro grant granted
    obtain ⟨m, grants⟩ := sub granted
    exact ⟨m, grants_of_same mappings memories ports grants⟩
  portLocks := by
    rw [ports]
    exact inv.portLocks
  memoryLocks := by
    rw [memories]
    exact inv.memoryLocks

/-- Another time or cache of one initiator. -/
theorem Invariant.setInitiator (inv : s.Invariant) (j : Nat) {socket : TlmInitiatorSocket}
    (windows
      : ∀ cache, socket.dmiCache = some cache
          → cache.Invariant ∧ cache.grants ⊆ s.grantable j)
    : (s.setInitiator j socket).Invariant := by
  apply inv.of_windows (s.setInitiator j socket) rfl rfl rfl
  intro i cache cached
  by_cases same : i = j
  · subst same
    simp only [MemorySystem.setInitiator, Function.update_self] at cached
    exact windows cache cached
  · simp only [MemorySystem.setInitiator, Function.update_of_ne same] at cached
    exact inv.windows i cache cached

theorem Invariant.advance (inv : s.Invariant) (j delay : Nat) : (s.advance j delay).Invariant :=
  inv.setInitiator j (inv.windows j)

theorem Invariant.host (inv : s.Invariant) (host : ByteMemory)
    : ({ s with host } : MemorySystem).Invariant :=
  inv.of_windows { s with host } rfl rfl rfl inv.windows

/-- A transaction of a debugger only changes the host's memory. -/
theorem transportDbg_system (s : MemorySystem) (tx : TlmPayload)
    : ∃ host, (s.transportDbg tx).system = { s with host } := by
  unfold transportDbg
  cases lookupMapping s.mappings tx.range with
  | none => exact ⟨s.host, rfl⟩
  | some m => exact memoryTransport_system s m.target _

/-- A transaction of an access keeps the invariant. -/
theorem Invariant.send (inv : s.Invariant) {j : Nat} {a : Access} {response : Response}
    {pending : Option TlmPayload} {next : MemorySystem} (contiguous : Contiguous s.mappings a)
    (sent : s.send j a = some (response, pending, next))
    : next.Invariant ∧ s.Stable next := by
  unfold MemorySystem.send at sent
  rw [if_neg contiguous.nonempty] at sent
  split at sent
  · obtain ⟨-, -, rfl⟩ := Prod.mk.inj (Option.some.inj sent) |>.imp_right Prod.mk.inj
    obtain ⟨host, system⟩ := transportDbg_system s (s.setup j a)
    rw [system]
    exact ⟨inv.host host, .of_same rfl rfl⟩
  · obtain ⟨done, transported, same⟩ := Option.map_eq_some_iff.mp sent
    obtain ⟨-, -, rfl⟩ := Prod.mk.inj same |>.imp_right Prod.mk.inj
    have effect := portTransport_effect inv.wellFormed transported
    exact ⟨(effect.invariant inv contiguous.ordered contiguous.undivided).advance j done.delay,
      effect.stable.trans (.of_same rfl rfl)⟩

-----------------------------------------------------------------------------------------
-- New windows
-----------------------------------------------------------------------------------------

/-- What `bus::get_direct_mem_ptr` makes of a window in a memory: the same bytes at the addresses of
the mapping, cut at its end.
-/
structure Translated (m : Mapping) (dmi translated : TlmDmi) : Prop where
  start : translated.start.toNat = m.addr.start.toNat + dmi.start.toNat
  last : translated.last.toNat = min (m.addr.start.toNat + dmi.last.toNat) m.addr.last.toNat
  pointer : ∀ addr, translated.getPtr addr = dmi.getPtr (addr - m.addr.start)
  access : translated.access = dmi.access
  readLatency : translated.readLatency = dmi.readLatency
  writeLatency : translated.writeLatency = dmi.writeLatency

/-- The translation for a window in a memory that the mapping fits. -/
theorem translateDmi_translated {m : Mapping} {memory : GenericMemory} (fits : m.Fits memory)
    {dmi : TlmDmi} (ordered : dmi.start.toNat ≤ dmi.last.toNat)
    (inside : dmi.last.toNat ≤ memory.memory.dmi.last.toNat)
    : Translated m dmi (translateDmi m dmi) := by
  have below := fits.below
  have start : dmi.start + m.addr.start - m.offset = dmi.start + m.addr.start := by
    rw [fits.offset, sub_zero]
  have last : dmi.last + m.addr.start - m.offset = dmi.last + m.addr.start := by
    rw [fits.offset, sub_zero]
  have first : (dmi.start + m.addr.start).toNat = m.addr.start.toNat + dmi.start.toNat := by
    bv_omega
  have final : (dmi.last + m.addr.start).toNat = m.addr.start.toNat + dmi.last.toNat := by
    bv_omega
  have notBefore : ¬ dmi.start + m.addr.start < m.addr.start := by
    rw [BitVec.lt_def]
    omega
  unfold translateDmi
  simp only [start, last, if_neg notBefore]
  refine ⟨first, ?_, ?_, rfl, rfl, rfl⟩
  · simp only
    split
    · next behind =>
        rw [gt_iff_lt, BitVec.lt_def] at behind
        omega
    · next within =>
        rw [gt_iff_lt, BitVec.lt_def] at within
        omega
  · intro addr
    simp only [TlmDmi.getPtr]
    abel

/-- The bus asks the memory of the mapping and translates the window that passes its monitor. -/
theorem busGetDirectMemPtr_translates (wf : s.WellFormed) (tx : TlmPayload)
    : (s.busGetDirectMemPtr tx).2 = s
      ∧ ∀ dmi, (s.busGetDirectMemPtr tx).1 = some dmi
          → ∃ m ∈ s.mappings,
              m.addr.includes tx.range = true
              ∧ (s.memories m.target).socket.allowDmi = true
              ∧ ∃ window,
                  TlmExmon.Restricts (tx.address - m.addr.start)
                    (s.memories m.target).memory.dmi window
                  ∧ (∀ lock ∈ (s.memories m.target).socket.exmon, TlmExmon.Avoids window lock)
                  ∧ dmi = translateDmi m window := by
  unfold busGetDirectMemPtr
  cases routed : lookupMapping s.mappings tx.range with
  | none => exact ⟨rfl, by intro dmi found; cases found⟩
  | some m =>
      have mapped : m ∈ s.mappings := List.mem_of_find?_eq_some routed
      have includes := List.find?_some routed
      have fits := wf.fits m mapped
      simp only [socketGetDmiPtr, socketLookup_regular (wf.regular m mapped), setSocket_self]
      refine ⟨trivial, ?_⟩
      intro dmi found
      obtain ⟨window, passed, rfl⟩ := Option.map_eq_some_iff.mp found
      split at passed
      · next holds =>
          simp only [Bool.and_eq_true] at holds
          have around := (AddressRange.includes_iff_ends.mp holds.1.2).1
          obtain ⟨part, avoids⟩ := TlmExmon.overrideDmi_restricts around passed
          refine ⟨m, mapped, includes, holds.1.1, window, ?_, avoids, rfl⟩
          simp only [fits.offset, add_zero] at part
          exact part
      · cases passed

/-- A request for a window leaves the bus and the memories as they are, and the window that it gets
grants only what it may.
-/
theorem portGetDmiPtr_grants (wf : s.WellFormed) (j : Nat) (tx : TlmPayload)
    : (s.portGetDmiPtr j tx).2 = s
      ∧ ∀ dmi, (s.portGetDmiPtr j tx).1 = some dmi
          → dmi.Proper ∧ dmi.grants ⊆ s.grantable j := by
  obtain ⟨kept, translates⟩ := busGetDirectMemPtr_translates wf tx
  unfold portGetDmiPtr
  split
  · refine ⟨kept, ?_⟩
    intro dmi found
    obtain ⟨translated, fromBus, passed⟩ := Option.bind_eq_some_iff.mp found
    rw [kept] at passed
    obtain ⟨m, mapped, includes, allowed, window, part, avoids, rfl⟩ :=
      translates translated fromBus
    have fits := wf.fits m mapped
    have regular := wf.regular m mapped
    have below := fits.below
    have within := fits.within
    have first := (AddressRange.includes_iff_ends.mp includes).1
    have bounds := AddressRange.includesAddr_iff.mp part.around
    simp only [TlmDmi.range] at bounds
    have translation := translateDmi_translated fits (bounds.1.trans bounds.2) part.last
    have moved := local_address first
    rw [AddressRange.includesAddr_iff] at first
    rw [show tx.range.start = tx.address from rfl] at first moved
    have around : (translateDmi m window).range.includesAddr tx.address = true := by
      rw [AddressRange.includesAddr_iff]
      simp only [TlmDmi.range, translation.start, translation.last]
      omega
    obtain ⟨outer, portAvoids⟩ := TlmExmon.overrideDmi_restricts around passed
    have outerBounds := AddressRange.includesAddr_iff.mp outer.around
    simp only [TlmDmi.range] at outerBounds
    have last := outer.last
    rw [translation.last] at last
    refine ⟨⟨outerBounds.1.trans outerBounds.2, by omega⟩, ?_⟩
    intro grant granted
    have locked : ∀ lock ∈ (s.ports j).exmon, lock.addr.includesAddr grant.address = false := by
      intro lock mem
      exact portAvoids lock mem grant.address granted.1
    obtain ⟨inside, pointer, access, readLatency, writeLatency⟩ := outer.grants granted
    rw [translation.pointer] at pointer
    rw [translation.access] at access
    rw [translation.readLatency] at readLatency
    rw [translation.writeLatency] at writeLatency
    rw [AddressRange.includesAddr_iff] at inside
    simp only [TlmDmi.range, translation.start, translation.last] at inside
    have inMapping : m.addr.includesAddr grant.address = true := by
      rw [AddressRange.includesAddr_iff]
      omega
    have local_eq := local_address inMapping
    have inWindow : window.range.includesAddr (grant.address - m.addr.start) = true := by
      rw [AddressRange.includesAddr_iff]
      simp only [TlmDmi.range]
      omega
    obtain ⟨_, inMemory, sameAccess, sameRead, sameWrite⟩ :=
      part.grants (TlmDmi.grantAt_mem inWindow)
    simp only [TlmDmi.grantAt] at inMemory sameAccess sameRead sameWrite
    refine ⟨m, ?_⟩
    exact {
      mapped := mapped
      inside := inMapping
      allowed := allowed
      pointer := by
        rw [pointer, inMemory, TlmDmi.getPtr, regular.start, sub_zero]
      access := access.trans sameAccess
      readLatency := readLatency.trans sameRead
      writeLatency := writeLatency.trans sameWrite
      unlocked := by
        intro lock mem
        exact avoids lock mem _ inWindow
      portUnlocked := locked
    }
  · exact ⟨rfl, by intro dmi found; cases found⟩

/-- A request for a window keeps the invariant, and changes nothing without DMI. -/
theorem Invariant.requestDmi (inv : s.Invariant) (j : Nat) (tx : TlmPayload)
    : (s.requestDmi j tx).Invariant
      ∧ ∃ dmiCache, s.requestDmi j tx = s.setInitiator j { s.initiators j with dmiCache } := by
  obtain ⟨kept, granted⟩ := portGetDmiPtr_grants inv.wellFormed j tx
  have same : s = s.setInitiator j { s.initiators j with dmiCache := (s.initiators j).dmiCache } := by
    unfold MemorySystem.setInitiator
    rw [Function.update_eq_self]
  unfold MemorySystem.requestDmi
  split
  · generalize s.portGetDmiPtr j tx = asked at kept granted
    obtain ⟨found, next⟩ := asked
    obtain rfl : next = s := kept
    cases found with
    | none => exact ⟨inv, _, same⟩
    | some dmi =>
        obtain ⟨proper, sub⟩ := granted dmi rfl
        refine ⟨inv.setInitiator j ?_, _, rfl⟩
        intro cache cached
        obtain ⟨before, was, rfl⟩ := Option.map_eq_some_iff.mp cached
        obtain ⟨beforeInv, beforeSub⟩ := inv.windows j before was
        exact ⟨beforeInv.insert proper,
          (beforeInv.insert_grants proper).trans (Set.union_subset sub beforeSub)⟩
  · exact ⟨inv, _, same⟩

-----------------------------------------------------------------------------------------
-- Lookups and resets
-----------------------------------------------------------------------------------------

/-- A lookup in the cache of an initiator, which may make the cache, keeps the invariant. -/
theorem Invariant.lookup (inv : s.Invariant) (j : Nat) (r : AddressRange) (rwx : VcmlAccess)
    : (s.setInitiator j {
        s.initiators j with
        dmiCache := some (((s.initiators j).dmiCache.getD {}).lookup r rwx).2 }).Invariant := by
  apply inv.setInitiator
  intro cache cached
  obtain rfl := Option.some.inj cached
  cases was : (s.initiators j).dmiCache with
  | none =>
      obtain ⟨kept, same⟩ := (TlmDmiCache.Invariant.empty 16).lookup r rwx
      refine ⟨kept, ?_⟩
      rw [Option.getD_none, same, TlmDmiCache.grants_empty]
      exact Set.empty_subset _
  | some before =>
      obtain ⟨beforeInv, beforeSub⟩ := inv.windows j before was
      obtain ⟨kept, same⟩ := beforeInv.lookup r rwx
      refine ⟨kept, ?_⟩
      rw [Option.getD_some, same]
      exact beforeSub

/-- An invalidation keeps the invariant, and leaves no window with an address that a mapping puts in
the range.
-/
theorem Invariant.invalidated (inv : s.Invariant) (target : Nat) (r : AddressRange)
    : ({ s with initiators := s.invalidatedInitiators target r } : MemorySystem).Invariant
      ∧ ∀ j cache, (s.invalidatedInitiators target r j).dmiCache = some cache
          → ∀ grant ∈ cache.grants, ∀ m ∈ s.mappings, m.target = target
          → m.addr.includesAddr grant.address = true
          → r.includesAddr (grant.address - m.addr.start) = false := by
  constructor
  · apply inv.of_windows { s with initiators := s.invalidatedInitiators target r } rfl rfl rfl
    intro j cache cached
    obtain ⟨before, was, kept⟩ := foldl_unmapDmi_grants _ cached
    obtain ⟨beforeInv, beforeSub⟩ := inv.windows j before was
    exact ⟨(kept beforeInv).1, (kept beforeInv).2.1.trans beforeSub⟩
  · intro j cache cached grant granted m mapped targets inside
    obtain ⟨before, was, kept⟩ := foldl_unmapDmi_grants _ cached
    rw [Bool.eq_false_iff]
    intro invalidated
    obtain ⟨range, mem, reaches⟩ := invalidations_cover mapped targets
      (targets ▸ inv.wellFormed.fits m mapped) inside invalidated
    rw [(kept (inv.windows j before was).1).2.2 grant granted range mem] at reaches
    cases reaches

/-- The invalidations of a reset keep the invariant and change the initiators only, by induction on
the windows.
-/
theorem Invariant.invalidateAll (target : Nat) (entries : List TlmDmi) {s : MemorySystem}
    (inv : s.Invariant) {next : MemorySystem}
    (invalidated : MemorySystem.invalidateAll target entries s = some next)
    : next.Invariant ∧ ∃ initiators, next = { s with initiators } := by
  induction entries generalizing s with
  | nil =>
      obtain rfl := Option.some.inj invalidated
      exact ⟨inv, s.initiators, rfl⟩
  | cons dmi rest ih =>
      obtain ⟨middle, first, later⟩ := Option.bind_eq_some_iff.mp invalidated
      obtain rfl := invalidateDirectMemPtr_some (r := dmi.range) first
      obtain ⟨kept, initiators, rfl⟩ := ih (inv.invalidated target dmi.range).1 later
      exact ⟨kept, initiators, rfl⟩

/-- A reset keeps the invariant. -/
theorem Invariant.reset (inv : s.Invariant) {target : Nat} {next : MemorySystem}
    (wasReset : s.reset target = some next)
    : next.Invariant ∧ s.Stable next := by
  unfold MemorySystem.reset at wasReset
  obtain ⟨middle, invalidated, rfl⟩ := Option.map_eq_some_iff.mp wasReset
  obtain ⟨kept, initiators, rfl⟩ := Invariant.invalidateAll target _ inv invalidated
  split
  · exact ⟨kept.host _, .of_same rfl rfl⟩
  · exact ⟨kept, .of_same rfl rfl⟩

end MemorySystem

end VcmlPydrofoil
