import VcmlPydrofoil.Transport.FlatMemory

/-! What a transaction leaves in the monitors: the one at its port sees it always, the one at its
memory when the first lets it proceed.
-/

namespace VcmlPydrofoil

namespace TlmExmon

/-- What a monitor does to its locks, from the parts of the transaction that it looks at. -/
theorem update_locks {locks : TlmExmon} {first second : TlmPayload}
    (command : first.command = second.command) (range : first.range = second.range)
    (excl : first.sbi.isExcl = second.sbi.isExcl) (cpuid : first.sbi.cpuid = second.sbi.cpuid)
    : (locks.update first).2.2 = (locks.update second).2.2 := by
  unfold update
  simp only [command, range, excl, cpuid]

/-- A CPU has a lock of a range. -/
theorem hasLock_iff {locks : TlmExmon} {cpu : BitVec 32} {r : AddressRange}
    : locks.hasLock cpu r = true
      ↔ ∃ lock ∈ locks, lock.cpu = cpu ∧ lock.addr.includes r = true := by
  simp [hasLock]

/-- A lock stays unless a write overlaps it or its CPU locks another range. -/
theorem update_keeps {locks : TlmExmon} {tx : TlmPayload} {lock : Exlock} (mem : lock ∈ locks)
    (apart : tx.command = .write → lock.addr.overlaps tx.range = false)
    (other : tx.Locks → tx.sbi.cpuid.setWidth 32 ≠ lock.cpu)
    : lock ∈ (locks.update tx).2.2 := by
  obtain ⟨command, address, size, data, allowed, status, ⟨isDebug, isNodmi, isExcl, cpuid⟩⟩ := tx
  cases command with
  | read =>
      cases isExcl with
      | false => exact mem
      | true =>
          have different := other ⟨rfl, rfl⟩
          refine List.mem_append_left _ (List.mem_filter.mpr ⟨mem, ?_⟩)
          exact bne_iff_ne.mpr (Ne.symm different)
  | write =>
      refine List.mem_filter.mpr ⟨mem, ?_⟩
      rw [Bool.not_eq_true']
      exact apart rfl
  | ignore => exact mem

/-- After a write no lock overlaps its range. -/
theorem update_write {locks : TlmExmon} (tx : TlmPayload) {lock : Exlock}
    (write : tx.command = .write) (mem : lock ∈ (locks.update tx).2.2)
    : lock.addr.overlaps tx.range = false := by
  unfold update at mem
  rw [write] at mem
  have apart := (List.mem_filter.mp mem).2
  rwa [Bool.not_eq_true'] at apart

/-- After an exclusive read its CPU has one lock, that of its range. -/
theorem update_read (locks : TlmExmon) {tx : TlmPayload} (exclusive : tx.Locks)
    : { cpu := tx.sbi.cpuid.setWidth 32, addr := tx.range } ∈ (locks.update tx).2.2
      ∧ ∀ lock ∈ (locks.update tx).2.2,
          lock.cpu = tx.sbi.cpuid.setWidth 32 → lock.addr = tx.range := by
  unfold update
  rw [exclusive.2]
  simp only [exclusive.1, if_true, addLock, breakLocksOf]
  refine ⟨List.mem_append_right _ (List.mem_singleton_self _), ?_⟩
  intro lock mem cpu
  rcases List.mem_append.mp mem with old | new
  · have different := (List.mem_filter.mp old).2
    simp [cpu] at different
  · rw [List.mem_singleton.mp new]

end TlmExmon

namespace MemorySystem

variable {s : MemorySystem} {j : Nat} {a : Access}

/-- The transaction of an access at the memory of a mapping. -/
def localTx (s : MemorySystem) (j : Nat) (a : Access) (m : Mapping) : TlmPayload :=
  { s.setup j a with address := a.addr - m.addr.start + m.offset }

/-- The monitor of the port has seen the transaction. Either it went no further, or the monitor of
one memory has seen it too.
-/
structure Monitored (s : MemorySystem) (j : Nat) (a : Access) (next : MemorySystem) : Prop where
  cpuids : ∀ i, (next.initiators i).cpuid = (s.initiators i).cpuid
  ports
    : ∀ i,
        (next.ports i).exmon
        = if i = j then ((s.ports j).exmon.update (s.setup j a)).2.2 else (s.ports i).exmon
  memories
    : ((∀ target, (next.memories target).socket.exmon = (s.memories target).socket.exmon)
        ∧ next.host = s.host
        ∧ (lookupMapping s.mappings (.ofAccess a.addr a.size) = none ∨ a.command = .write))
      ∨ ∃ m,
          s.Placed m a
          ∧ ∀ target,
              (next.memories target).socket.exmon
              = if target = m.target then
                  ((s.memories target).socket.exmon.update (s.localTx j a m)).2.2
                else (s.memories target).socket.exmon

/-- The ports after the monitor of one of them was updated. -/
theorem setPort_exmon_eq (s : MemorySystem) (j : Nat) (exmon : TlmExmon) (i : Nat)
    : ((s.setPort j { s.ports j with exmon }).ports i).exmon
      = if i = j then exmon else (s.ports i).exmon := by
  by_cases same : i = j
  · subst same
    simp only [setPort, Function.update_self, if_true]
  · simp only [setPort, Function.update_of_ne same, if_neg same]

/-- The memories after the monitor of one of them was updated. -/
theorem setSocket_exmon_eq (s : MemorySystem) (target : Nat) (exmon : TlmExmon) (t : Nat)
    : ((s.setSocket target { (s.memories target).socket with exmon }).memories t).socket.exmon
      = if t = target then exmon else (s.memories t).socket.exmon := by
  by_cases same : t = target
  · subst same
    simp only [setSocket, Function.update_self, if_true]
  · simp only [setSocket, Function.update_of_ne same, if_neg same]

/-- What a transaction leaves in the monitors. -/
theorem portTransport_monitored (wf : s.WellFormed) (contiguous : Contiguous s.mappings a)
    {done : Transported} (transported : s.portTransport j (s.setup j a) = some done)
    : Monitored s j a done.system := by
  have same
      : ((s.ports j).exmon.update { s.setup j a with isDmiAllowed := false }).2.2
        = ((s.ports j).exmon.update (s.setup j a)).2.2 :=
    TlmExmon.update_locks rfl rfl rfl rfl
  have cases := update_cases (s.ports j).exmon { s.setup j a with isDmiAllowed := false }
  obtain ⟨allowed, isExcl, payload⟩ :=
    TlmExmon.update_payload (s.ports j).exmon { s.setup j a with isDmiAllowed := false }
  unfold portTransport at transported
  generalize (s.ports j).exmon.update { s.setup j a with isDmiAllowed := false } = updated
    at same cases payload transported
  obtain ⟨proceed, inner, exmon⟩ := updated
  simp only at same cases payload transported
  subst same
  have ports := setPort_exmon_eq s j ((s.ports j).exmon.update (s.setup j a)).2.2
  rcases cases with ⟨rfl, sbi, _⟩ | ⟨rfl, _, _, write, _⟩
  · rw [if_pos rfl] at transported
    unfold busTransport at transported
    rw [show inner.range = .ofAccess a.addr a.size by rw [payload]; rfl] at transported
    rcases contiguous.route with ⟨m, routed, placed⟩ | routed
    · simp only [show ∀ socket, (s.setPort j socket).mappings = s.mappings from fun _ => rfl,
        routed] at transported
      obtain ⟨inside, atMemory, rfl⟩ := Option.map_eq_some_iff.mp transported
      obtain ⟨host, system⟩ := socketTransport_system
        (s := s.setPort j { s.ports j with exmon := _ }) (wf.regular m placed.mapped) atMemory
      simp only
      rw [system]
      refine ⟨?_, ports, .inr ⟨m, placed, ?_⟩⟩
      · intro i
        simp only
        split
        · obtain ⟨dmiCache, kept⟩ := foldl_unmapDmi
            ((s.setPort j { s.ports j with exmon := _ }).invalidations m.target
              ({ inner with address := inner.address - m.addr.start + m.offset }
                : TlmPayload).range)
            (s.initiators i)
          have same := congrArg TlmInitiatorSocket.cpuid kept
          exact same
        · rfl
      · intro target
        have seen
            : ((s.memories m.target).socket.exmon.update
                { inner with address := inner.address - m.addr.start + m.offset }).2.2
              = ((s.memories m.target).socket.exmon.update (s.localTx j a m)).2.2 :=
          TlmExmon.update_locks (by rw [payload]; rfl) (by rw [payload]; rfl)
            (congrArg TlmSbi.isExcl sbi) (congrArg TlmSbi.cpuid sbi)
        refine (setSocket_exmon_eq s m.target _ target).trans ?_
        by_cases same : target = m.target
        · subst same
          rw [if_pos rfl, if_pos rfl]
          exact seen
        · rw [if_neg same, if_neg same]
    · simp only [show ∀ socket, (s.setPort j socket).mappings = s.mappings from fun _ => rfl,
        routed] at transported
      obtain rfl := Option.some.inj transported
      exact ⟨fun _ => rfl, ports, .inl ⟨fun _ => rfl, rfl, .inl routed⟩⟩
  · rw [if_neg (by simp)] at transported
    obtain rfl := Option.some.inj transported
    exact ⟨fun _ => rfl, ports, .inl ⟨fun _ => rfl, rfl, .inr write⟩⟩

/-- No monitor has seen anything. -/
structure Unmonitored (s next : MemorySystem) : Prop where
  cpuids : ∀ i, (next.initiators i).cpuid = (s.initiators i).cpuid
  ports : next.ports = s.ports
  memories : next.memories = s.memories

/-- What a transaction of an access leaves in the monitors. A debugger passes all of them. -/
theorem WellFormed.send_monitored (wf : s.WellFormed) (contiguous : Contiguous s.mappings a)
    {response : Response} {pending : Option TlmPayload} {next : MemorySystem}
    (sent : s.send j a = some (response, pending, next))
    : if a.info.isDebug then s.Unmonitored next else Monitored s j a next := by
  unfold MemorySystem.send at sent
  rw [if_neg contiguous.nonempty] at sent
  split at sent
  · next debug =>
      rw [if_pos debug]
      obtain ⟨-, -, rfl⟩ := Prod.mk.inj (Option.some.inj sent) |>.imp_right Prod.mk.inj
      obtain ⟨host, system⟩ := transportDbg_system s (s.setup j a)
      rw [system]
      exact ⟨fun _ => rfl, rfl, rfl⟩
  · next plain =>
      rw [if_neg plain]
      obtain ⟨done, transported, same⟩ := Option.map_eq_some_iff.mp sent
      obtain ⟨-, -, rfl⟩ := Prod.mk.inj same |>.imp_right Prod.mk.inj
      have monitored := portTransport_monitored wf contiguous transported
      refine ⟨?_, monitored.ports, monitored.memories⟩
      intro i
      rw [← monitored.cpuids i]
      unfold advance setInitiator
      by_cases same : i = j
      · subst same
        simp only [Function.update_self]
      · simp only [Function.update_of_ne same]

/-- Invalidations pass no monitor, by induction on the windows. -/
theorem invalidateAll_unmonitored (target : Nat) (entries : List TlmDmi) {s next : MemorySystem}
    (invalidated : invalidateAll target entries s = some next)
    : s.Unmonitored next := by
  induction entries generalizing s with
  | nil =>
      obtain rfl := Option.some.inj invalidated
      exact ⟨fun _ => rfl, rfl, rfl⟩
  | cons dmi rest ih =>
      obtain ⟨middle, first, later⟩ := Option.bind_eq_some_iff.mp invalidated
      obtain rfl := invalidateDirectMemPtr_some (r := dmi.range) first
      have others := ih later
      refine ⟨?_, others.ports, others.memories⟩
      intro i
      obtain ⟨dmiCache, kept⟩ := foldl_unmapDmi (s.invalidations target dmi.range) (s.initiators i)
      have same := congrArg TlmInitiatorSocket.cpuid kept
      exact (others.cpuids i).trans same

/-- A reset passes no monitor. -/
theorem reset_unmonitored {target : Nat} {next : MemorySystem}
    (wasReset : s.reset target = some next)
    : s.Unmonitored next := by
  unfold MemorySystem.reset at wasReset
  obtain ⟨middle, invalidated, rfl⟩ := Option.map_eq_some_iff.mp wasReset
  have unmonitored := invalidateAll_unmonitored target _ invalidated
  split
  · exact ⟨unmonitored.cpuids, unmonitored.ports, unmonitored.memories⟩
  · exact unmonitored

/-- A new cache of windows passes no monitor. -/
theorem setInitiator_unmonitored (s : MemorySystem) (j : Nat) (dmiCache : Option TlmDmiCache)
    : s.Unmonitored (s.setInitiator j { s.initiators j with dmiCache }) := by
  refine ⟨?_, rfl, rfl⟩
  intro i
  unfold setInitiator
  by_cases same : i = j
  · subst same
    simp only [Function.update_self]
  · simp only [Function.update_of_ne same]

end MemorySystem

end VcmlPydrofoil
