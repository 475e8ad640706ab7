import VcmlPydrofoil.Correctness.FlatMemory
import VcmlPydrofoil.Transport.Locks

/-! Exclusive accesses are atomic. The locks that an exclusive read leaves at its port and at its
memory tell whether anyone has written to its range, through a transaction or through a window, so
an exclusive write that succeeds finds the bytes that were read.
-/

namespace VcmlPydrofoil

namespace MemorySystem

variable {s : MemorySystem} {j : Nat} {a : Access}

-----------------------------------------------------------------------------------------
-- Steps
-----------------------------------------------------------------------------------------

/-- What an access does to the flat memory and to the monitors. -/
theorem Invariant.perform_monitored (inv : s.Invariant) (separate : s.Separate)
    (contiguous : Contiguous s.mappings a) {returned : Option Response} {next : MemorySystem}
    (performed : s.perform (.access j a) = some (returned, next))
    : (∃ response, returned = some response ∧ s.FlatOutcome j a response next)
      ∧ if a.info.isDebug then s.Unmonitored next else s.Monitored j a next := by
  obtain ⟨response, pending, reached, same, sent, outcome⟩ :=
    inv.perform_access separate j contiguous
  obtain ⟨rfl, rfl⟩ := Prod.mk.inj (Option.some.inj (performed.symm.trans same))
  refine ⟨⟨response, rfl, outcome⟩, ?_⟩
  have wf : s.withoutDmi.WellFormed :=
    ⟨inv.wellFormed.apart, inv.wellFormed.fits, inv.wellFormed.regular⟩
  have monitored := wf.send_monitored contiguous sent
  by_cases debug : a.info.isDebug = true
  · rw [if_pos debug] at monitored ⊢
    exact ⟨monitored.cpuids, monitored.ports, monitored.memories⟩
  · rw [if_neg debug] at monitored ⊢
    refine ⟨monitored.cpuids, monitored.ports, ?_⟩
    rcases monitored.memories with stopped | ⟨m, placed, memories⟩
    · exact .inl stopped
    · exact .inr ⟨m, ⟨placed.mapped, placed.includes, placed.contiguous⟩, memories⟩

/-- The range of an access at the memory of a mapping. -/
def localRange (m : Mapping) (a : Access) : AddressRange :=
  .ofAccess (a.addr - m.addr.start + m.offset) a.size

/-- Ranges in one mapping overlap at the bus when they overlap at the memory. -/
theorem Placed.local_overlaps (wf : s.WellFormed) {m : Mapping} {first second : Access}
    (firstPlaced : s.Placed m first) (secondPlaced : s.Placed m second)
    : (localRange m first).overlaps (localRange m second)
      = (AddressRange.ofAccess first.addr first.size).overlaps
          (.ofAccess second.addr second.size) := by
  have fits := wf.fits m firstPlaced.mapped
  have firstEnds := AddressRange.includes_iff_ends.mp firstPlaced.includes
  have secondEnds := AddressRange.includes_iff_ends.mp secondPlaced.includes
  have := local_address firstEnds.1
  have := local_address firstEnds.2
  have := local_address secondEnds.1
  have := local_address secondEnds.2
  rw [Bool.eq_iff_iff, localRange, localRange, local_range fits, local_range fits,
    AddressRange.overlaps_iff, AddressRange.overlaps_iff]
  simp only [AddressRange.includesAddr_iff] at firstEnds secondEnds
  simp only
  omega

/-- A range in a mapping includes another one at the memory when it does so at the bus. -/
theorem Placed.local_includes (wf : s.WellFormed) {m : Mapping} {outer inner : Access}
    (outerPlaced : s.Placed m outer) (innerPlaced : s.Placed m inner)
    (includes
      : (AddressRange.ofAccess outer.addr outer.size).includes (.ofAccess inner.addr inner.size)
        = true)
    : (localRange m outer).includes (localRange m inner) = true := by
  have fits := wf.fits m outerPlaced.mapped
  have outerEnds := AddressRange.includes_iff_ends.mp outerPlaced.includes
  have innerEnds := AddressRange.includes_iff_ends.mp innerPlaced.includes
  have := local_address outerEnds.1
  have := local_address outerEnds.2
  have := local_address innerEnds.1
  have := local_address innerEnds.2
  rw [localRange, localRange, local_range fits, local_range fits, AddressRange.includes_iff_ends]
  rw [AddressRange.includes_iff_ends] at includes
  simp only [AddressRange.includesAddr_iff] at includes outerEnds innerEnds ⊢
  omega

/-- A memory that keeps its bytes apart has one mapping. -/
theorem Separate.unique_target (separate : s.Separate) {first second : Mapping}
    (firstMapped : first ∈ s.mappings) (secondMapped : second ∈ s.mappings)
    (same : first.target = second.target)
    : first = second := by
  by_contra different
  have apart := separate.disjoint first firstMapped second secondMapped different
  rw [same] at apart
  omega

/-- An access changes the flat memory only as a write to its range. -/
theorem FlatOutcome.flat_apply {response : Response} {next : MemorySystem}
    (outcome : s.FlatOutcome j a response next) {addr : Nat}
    (kept : a.command = .write → addr < a.addr.toNat ∨ a.addr.toNat + a.size.toNat ≤ addr)
    : next.flat addr = s.flat addr := by
  rcases outcome with ⟨served, _⟩ | ⟨_, _, _, same⟩
  · have written : next.flat = (FlatMemory.access s.mappings s.flat a).2 :=
      congrArg Prod.snd served
    rw [written]
    unfold FlatMemory.access
    split
    · rfl
    · cases command : a.command with
      | read => rfl
      | write => exact ByteMemory.store_outside s.flat a.data (kept command)
      | ignore => rfl
  · rw [same]

-----------------------------------------------------------------------------------------
-- Reservations
-----------------------------------------------------------------------------------------

/-- An exclusive access that is not one of a debugger. -/
structure Access.IsExclusive (a : Access) (command : TlmCommand) : Prop where
  excl : a.info.isExcl = true
  debug : a.info.isDebug = false
  command : a.command = command

instance (a : Access) (command : TlmCommand) : Decidable (a.IsExclusive command) :=
  decidable_of_iff (a.info.isExcl = true ∧ a.info.isDebug = false ∧ a.command = command)
    ⟨fun holds => ⟨holds.1, holds.2.1, holds.2.2⟩,
      fun exclusive => ⟨exclusive.excl, exclusive.debug, exclusive.command⟩⟩

/-- The calls that neither lock for the CPU nor pass the monitors with a write or a fill. -/
def Call.Quiet (s : MemorySystem) (cpu : BitVec 32) : Call → Prop
  | .access i a =>
      (a.IsExclusive .read → s.cpuOf i a ≠ cpu) ∧ (a.info.isDebug = true → a.command ≠ .write)
  | .requestDmi _ _ => True
  | .reset target => s.poisons target = 0

instance (s : MemorySystem) (cpu : BitVec 32) (call : Call) : Decidable (call.Quiet s cpu) :=
  match call with
  | .access i a =>
      inferInstanceAs (Decidable ((a.IsExclusive .read → s.cpuOf i a ≠ cpu)
        ∧ (a.info.isDebug = true → a.command ≠ .write)))
  | .requestDmi _ _ => inferInstanceAs (Decidable True)
  | .reset target => inferInstanceAs (Decidable (s.poisons target = 0))

/-- The calls that do not write to a range, and do not lock for the CPU. -/
def Call.Undisturbing (s : MemorySystem) (cpu : BitVec 32) (r : AddressRange) : Call → Prop
  | .access i a =>
      (a.IsExclusive .read → s.cpuOf i a ≠ cpu)
      ∧ (a.command = .write → r.overlaps (.ofAccess a.addr a.size) = false)
  | .requestDmi _ _ => True
  | .reset _ => True

instance (s : MemorySystem) (cpu : BitVec 32) (r : AddressRange) (call : Call)
    : Decidable (call.Undisturbing s cpu r) :=
  match call with
  | .access i a =>
      inferInstanceAs (Decidable ((a.IsExclusive .read → s.cpuOf i a ≠ cpu)
        ∧ (a.command = .write → r.overlaps (.ofAccess a.addr a.size) = false)))
  | .requestDmi _ _ => inferInstanceAs (Decidable True)
  | .reset _ => inferInstanceAs (Decidable True)

/-- A CPU that still has a lock at the port or at the memory has that of the read, and as long as it
has the one at the memory, the bytes are those that were read.
-/
structure Guarded (s : MemorySystem) (bytes : ByteMemory) (j : Nat) (cpu : BitVec 32) (m : Mapping)
    (load : Access)
    : Prop where
  port : ∀ lock ∈ (s.ports j).exmon, lock.cpu = cpu → lock.addr = .ofAccess load.addr load.size
  memory
    : ∀ lock ∈ (s.memories m.target).socket.exmon,
        lock.cpu = cpu
        → lock.addr = localRange m load
          ∧ ∀ addr,
              load.addr.toNat ≤ addr
              → addr < load.addr.toNat + load.size.toNat
              → s.flat addr = bytes addr

/-- The CPU has the locks of the read at the port and at the memory. -/
structure Reserved (s : MemorySystem) (j : Nat) (cpu : BitVec 32) (m : Mapping) (load : Access)
    : Prop where
  port : { cpu, addr := .ofAccess load.addr load.size } ∈ (s.ports j).exmon
  memory : { cpu, addr := localRange m load } ∈ (s.memories m.target).socket.exmon

variable {bytes : ByteMemory} {cpu : BitVec 32} {m : Mapping} {load : Access}

/-- An exclusive read of mapped bytes sets both locks and drops the older ones of its CPU. -/
theorem Invariant.reserve (inv : s.Invariant) (separate : s.Separate)
    (contiguous : Contiguous s.mappings load) (exclusive : load.IsExclusive .read)
    {loaded : Response} {next : MemorySystem}
    (performed : s.perform (.access j load) = some (some loaded, next)) (ok : loaded.status = .ok)
    : ∃ m,
        s.Placed m load
        ∧ next.Guarded next.flat j (s.cpuOf j load) m load
        ∧ next.Reserved j (s.cpuOf j load) m load := by
  obtain ⟨⟨response, same, outcome⟩, monitored⟩ :=
    inv.perform_monitored separate contiguous performed
  obtain rfl := Option.some.inj same
  rw [exclusive.debug, if_neg (by simp)] at monitored
  have routed : lookupMapping s.mappings (.ofAccess load.addr load.size) ≠ none := by
    intro routed
    rcases outcome with ⟨served, _⟩ | ⟨may, _⟩
    · have answer : loaded = (FlatMemory.access s.mappings s.flat load).1 :=
        congrArg Prod.fst served
      unfold FlatMemory.access at answer
      rw [routed] at answer
      rw [answer] at ok
      cases ok
    · simp [FlatMemory.mayRefuse, exclusive.command] at may
  rcases monitored.memories with ⟨_, _, unrouted | write⟩ | ⟨m, placed, memories⟩
  · exact absurd unrouted routed
  · rw [exclusive.command] at write
    cases write
  · have locks : ∀ tx : TlmPayload, tx.sbi = (s.setup j load).sbi → tx.command = load.command
        → tx.Locks := by
      intro tx sbi command
      refine ⟨?_, command.trans exclusive.command⟩
      rw [sbi]
      exact exclusive.excl
    have port := TlmExmon.update_read (s.ports j).exmon
      (locks (s.setup j load) rfl rfl)
    have memory := TlmExmon.update_read (s.memories m.target).socket.exmon
      (locks (s.localTx j load m) rfl rfl)
    have portLocks := monitored.ports j
    have memoryLocks := memories m.target
    rw [if_pos rfl] at portLocks memoryLocks
    refine ⟨m, placed, ⟨?_, ?_⟩, ?_, ?_⟩
    · rw [portLocks]
      exact port.2
    · rw [memoryLocks]
      exact fun lock mem same => ⟨memory.2 lock mem same, fun _ _ _ => rfl⟩
    · rw [portLocks]
      exact port.1
    · rw [memoryLocks]
      exact memory.1

/-- An access that does not lock for the CPU leaves it no lock that it did not have. -/
theorem Monitored.old_locks {next : MemorySystem} (monitored : s.Monitored j a next)
    (debug : a.info.isDebug = false) (quiet : a.IsExclusive .read → s.cpuOf j a ≠ cpu) {lock : Exlock}
    (same : lock.cpu = cpu)
    : (∀ i, lock ∈ (next.ports i).exmon → lock ∈ (s.ports i).exmon)
      ∧ ∀ target,
          lock ∈ (next.memories target).socket.exmon
          → lock ∈ (s.memories target).socket.exmon := by
  have old
      : ∀ (locks : TlmExmon) (tx : TlmPayload), tx.sbi = (s.setup j a).sbi
          → tx.command = a.command → lock ∈ (locks.update tx).2.2 → lock ∈ locks := by
    intro locks tx sbi command mem
    rcases TlmExmon.mem_of_update mem with before | ⟨excl, read, rfl⟩
    · exact before
    · rw [sbi] at excl same
      exact absurd same (quiet ⟨excl, debug, command ▸ read⟩)
  constructor
  · intro i mem
    rw [monitored.ports i] at mem
    split at mem
    · next equal =>
        subst equal
        exact old _ _ rfl rfl mem
    · exact mem
  · intro target mem
    rcases monitored.memories with ⟨kept, _⟩ | ⟨m, _, memories⟩
    · rwa [kept] at mem
    · rw [memories] at mem
      split at mem
      · exact old _ (s.localTx j a m) rfl rfl mem
      · exact mem

/-- A quiet access leaves the CPU guarded: a write to its range would have broken its lock. -/
theorem Guarded.access (guarded : s.Guarded bytes j cpu m load) (inv : s.Invariant)
    (separate : s.Separate) (placed : s.Placed m load) {i : Nat}
    (contiguous : Contiguous s.mappings a) (quiet : (Call.access i a).Quiet s cpu)
    {returned : Option Response} {next : MemorySystem}
    (performed : s.perform (.access i a) = some (returned, next))
    : next.Guarded bytes j cpu m load := by
  obtain ⟨⟨response, -, outcome⟩, monitored⟩ := inv.perform_monitored separate contiguous performed
  by_cases debug : a.info.isDebug = true
  · rw [if_pos debug] at monitored
    refine ⟨?_, ?_⟩
    · rw [monitored.ports]
      exact guarded.port
    · rw [monitored.memories]
      intro lock mem same
      obtain ⟨addr, kept⟩ := guarded.memory lock mem same
      refine ⟨addr, fun at_addr lower upper => ?_⟩
      rw [outcome.flat_apply fun write => absurd write (quiet.2 debug)]
      exact kept at_addr lower upper
  · rw [if_neg debug] at monitored
    rw [Bool.not_eq_true] at debug
    refine ⟨fun lock mem same => guarded.port lock ((monitored.old_locks debug quiet.1 same).1 j mem) same, ?_⟩
    intro lock mem same
    obtain ⟨addr, kept⟩ := guarded.memory lock
      ((monitored.old_locks debug quiet.1 same).2 m.target mem) same
    refine ⟨addr, fun at_addr lower upper => ?_⟩
    rw [← kept at_addr lower upper]
    have regular : (Call.access i a).Contiguous s.mappings := contiguous
    obtain ⟨_, stable⟩ := inv.perform regular performed
    rcases monitored.memories with ⟨_, host, _⟩ | ⟨other, otherPlaced, memories⟩
    · rw [stable.flat host]
    · apply outcome.flat_apply
      intro write
      by_contra! common
      have same : other = m := by
        obtain ⟨_, _, _⟩ := placed.bounds
        obtain ⟨_, _, _⟩ := otherPlaced.bounds
        have first := inv.wellFormed.mappingAt placed.mapped at_addr (by omega) (by omega)
        have second := inv.wellFormed.mappingAt otherPlaced.mapped at_addr (by omega)
          (by omega)
        exact Option.some.inj (second.symm.trans first)
      subst same
      rw [memories, if_pos rfl] at mem
      have apart : lock.addr.overlaps (localRange other a) = false :=
        TlmExmon.update_write (s.localTx i a other) write mem
      rw [addr, placed.local_overlaps inv.wellFormed otherPlaced, Bool.eq_false_iff, ne_eq,
        AddressRange.overlaps_iff, placed.contiguous.last.1, contiguous.last.1] at apart
      apply apart
      show load.addr.toNat ≤ _ ∧ a.addr.toNat ≤ _
      omega

/-- An access that does not write to the reserved range keeps both locks. -/
theorem Reserved.access (reserved : s.Reserved j cpu m load) (inv : s.Invariant)
    (separate : s.Separate) (placed : s.Placed m load) {i : Nat}
    (contiguous : Contiguous s.mappings a)
    (undisturbing
      : (Call.access i a).Undisturbing s cpu (.ofAccess load.addr load.size))
    {returned : Option Response} {next : MemorySystem}
    (performed : s.perform (.access i a) = some (returned, next))
    : next.Reserved j cpu m load := by
  obtain ⟨_, monitored⟩ := inv.perform_monitored separate contiguous performed
  by_cases debug : a.info.isDebug = true
  · rw [if_pos debug] at monitored
    refine ⟨?_, ?_⟩
    · rw [monitored.ports]
      exact reserved.port
    · rw [monitored.memories]
      exact reserved.memory
  · rw [if_neg debug] at monitored
    rw [Bool.not_eq_true] at debug
    have other
        : ∀ tx : TlmPayload, tx.sbi = (s.setup i a).sbi → tx.command = a.command → tx.Locks
            → tx.sbi.cpuid.setWidth 32 ≠ cpu := by
      rintro tx sbi command ⟨excl, read⟩
      rw [sbi] at excl ⊢
      exact undisturbing.1 ⟨excl, debug, command ▸ read⟩
    refine ⟨?_, ?_⟩
    · rw [monitored.ports j]
      split
      · next equal =>
          subst equal
          exact TlmExmon.update_keeps reserved.port undisturbing.2 (other _ rfl rfl)
      · exact reserved.port
    · rcases monitored.memories with ⟨kept, _⟩ | ⟨through, throughPlaced, memories⟩
      · rw [kept]
        exact reserved.memory
      · rw [memories]
        split
        · next equal =>
            obtain rfl := separate.unique_target placed.mapped throughPlaced.mapped equal
            refine TlmExmon.update_keeps reserved.memory ?_ (other (s.localTx i a m) rfl rfl)
            intro write
            exact (placed.local_overlaps inv.wellFormed throughPlaced).trans (undisturbing.2 write)
        · exact reserved.memory

-----------------------------------------------------------------------------------------
-- Runs
-----------------------------------------------------------------------------------------

/-- What every call keeps of a memory system. -/
structure Kept (first s : MemorySystem) : Prop where
  invariant : s.Invariant
  separate : s.Separate
  stable : first.Stable s
  cpuids : ∀ i, (s.initiators i).cpuid = (first.initiators i).cpuid

/-- One call keeps all of it. -/
theorem Kept.perform {first next : MemorySystem} {call : Call} {returned : Option Response}
    (kept : Kept first s) (regular : call.Regular first.mappings)
    (performed : s.perform call = some (returned, next))
    : Kept first next := by
  rw [← kept.stable.mappings] at regular
  obtain ⟨invariant, stable⟩ := kept.invariant.perform regular.contiguous performed
  refine ⟨invariant, kept.separate.of_stable stable, kept.stable.trans stable, ?_⟩
  intro i
  rw [← kept.cpuids i]
  cases call with
  | access j a =>
      have monitored := (kept.invariant.perform_monitored kept.separate regular performed).2
      split at monitored
      · exact monitored.cpuids i
      · exact monitored.cpuids i
  | requestDmi j tx =>
      obtain ⟨-, rfl⟩ := Prod.mk.inj (Option.some.inj performed)
      obtain ⟨_, dmiCache, same⟩ := kept.invariant.requestDmi j tx
      rw [same]
      exact (setInitiator_unmonitored s j dmiCache).cpuids i
  | reset target =>
      obtain ⟨reached, wasReset, same⟩ := Option.map_eq_some_iff.mp performed
      obtain ⟨-, rfl⟩ := Prod.mk.inj same
      exact (reset_unmonitored wasReset).cpuids i

/-- A run keeps all of it, and what each of its calls keeps beyond that. -/
theorem Kept.run {first next : MemorySystem} {trace : List (Call × Option Response)}
    (kept : Kept first s) (Property : MemorySystem → Prop)
    (regular : ∀ step ∈ trace, step.1.Regular first.mappings)
    (keeps
      : ∀ before call returned after,
          (call, returned) ∈ trace
          → Kept first before
          → call.Regular before.mappings
          → before.perform call = some (returned, after)
          → Property before
          → Property after)
    (initially : Property s) (ran : calls.run s trace = some next)
    : Kept first next ∧ Property next := by
  apply Transition.System.run_invariant (fun s => Kept first s ∧ Property s) _ ran
    ⟨kept, initially⟩
  rintro before ⟨call, returned⟩ mem after ⟨kept, holds⟩ stepped
  have performed := calls_step.mp stepped
  have regular := regular _ mem
  refine ⟨kept.perform regular performed, ?_⟩
  rw [← kept.stable.mappings] at regular
  exact keeps before call returned after mem kept regular performed holds

/-- The CPU of an access does not depend on the state of a run. -/
theorem Kept.cpuOf {first : MemorySystem} (kept : Kept first s) (i : Nat) (a : Access)
    : s.cpuOf i a = first.cpuOf i a := by
  unfold MemorySystem.cpuOf setup
  rw [kept.cpuids i]

/-- Quiet calls leave the CPU guarded, step by step. -/
theorem Guarded.run {first next : MemorySystem} {trace : List (Call × Option Response)}
    (kept : Kept first s) (placed : s.Placed m load) (guarded : s.Guarded bytes j cpu m load)
    (regular : ∀ step ∈ trace, step.1.Regular first.mappings)
    (quiet : ∀ step ∈ trace, step.1.Quiet first cpu) (ran : calls.run s trace = some next)
    : Kept first next ∧ next.Placed m load ∧ next.Guarded bytes j cpu m load := by
  apply kept.run (fun s => s.Placed m load ∧ s.Guarded bytes j cpu m load) regular _
    ⟨placed, guarded⟩ ran
  rintro before call returned after mem kept regular performed ⟨placed, guarded⟩
  refine ⟨(kept.invariant.perform regular.contiguous performed).2.placed placed, ?_⟩
  have quiet := quiet _ mem
  cases call with
  | access i a =>
      have here : (Call.access i a).Quiet before cpu :=
        ⟨fun exclusive => kept.cpuOf i a ▸ quiet.1 exclusive, quiet.2⟩
      exact guarded.access kept.invariant kept.separate placed regular here performed
  | requestDmi i tx =>
      obtain ⟨-, rfl⟩ := Prod.mk.inj (Option.some.inj performed)
      obtain ⟨_, dmiCache, same⟩ := kept.invariant.requestDmi i tx
      rw [same]
      exact ⟨guarded.port, guarded.memory⟩
  | reset target =>
      -- Without poison a reset leaves the bytes.
      obtain ⟨response, reached, same, step, _⟩ := kept.invariant.perform_flat kept.separate regular
      obtain ⟨rfl, rfl⟩ := Prod.mk.inj (Option.some.inj (performed.symm.trans same))
      obtain ⟨reached, wasReset, same⟩ := Option.map_eq_some_iff.mp performed
      obtain ⟨rfl, rfl⟩ := Prod.mk.inj same
      have unmonitored := reset_unmonitored wasReset
      have poison : before.poisons target = 0 := by
        have quiet : first.poisons target = 0 := quiet
        obtain ⟨exmon, same⟩ := kept.stable.memories target
        rw [← quiet, poisons, poisons, same]
      simp only [FlatMemory.calls, poison] at step
      have flat : before.flat = reached.flat := Option.some.inj step
      exact ⟨unmonitored.ports ▸ guarded.port, by
        rw [unmonitored.memories, ← flat]
        exact guarded.memory⟩

/-- Calls that do not disturb a reservation keep it, step by step. -/
theorem Reserved.run {first next : MemorySystem} {trace : List (Call × Option Response)}
    (kept : Kept first s) (placed : s.Placed m load) (reserved : s.Reserved j cpu m load)
    (regular : ∀ step ∈ trace, step.1.Regular first.mappings)
    (undisturbing
      : ∀ step ∈ trace, step.1.Undisturbing first cpu (.ofAccess load.addr load.size))
    (ran : calls.run s trace = some next)
    : Kept first next ∧ next.Placed m load ∧ next.Reserved j cpu m load := by
  apply kept.run (fun s => s.Placed m load ∧ s.Reserved j cpu m load) regular _
    ⟨placed, reserved⟩ ran
  rintro before call returned after mem kept regular performed ⟨placed, reserved⟩
  refine ⟨(kept.invariant.perform regular.contiguous performed).2.placed placed, ?_⟩
  have undisturbing := undisturbing _ mem
  cases call with
  | access i a =>
      have here : (Call.access i a).Undisturbing before cpu (.ofAccess load.addr load.size) :=
        ⟨fun exclusive => kept.cpuOf i a ▸ undisturbing.1 exclusive, undisturbing.2⟩
      exact reserved.access kept.invariant kept.separate placed regular here performed
  | requestDmi i tx =>
      obtain ⟨-, rfl⟩ := Prod.mk.inj (Option.some.inj performed)
      obtain ⟨_, dmiCache, same⟩ := kept.invariant.requestDmi i tx
      rw [same]
      exact ⟨reserved.port, reserved.memory⟩
  | reset target =>
      obtain ⟨reached, wasReset, same⟩ := Option.map_eq_some_iff.mp performed
      obtain ⟨rfl, rfl⟩ := Prod.mk.inj same
      have unmonitored := reset_unmonitored wasReset
      exact ⟨unmonitored.ports ▸ reserved.port, unmonitored.memories ▸ reserved.memory⟩

/-- A run from a fresh memory system in which an initiator reads mapped bytes exclusively, then
other calls follow, and then the same CPU writes exclusively through the same initiator.
-/
structure ExclusivePair (s : MemorySystem) (before middle : List (Call × Option Response)) (j : Nat)
    (load store : Access) (loaded stored : Response) (reserved current final : MemorySystem)
    : Prop where
  initial : s.Initial
  separate : s.Separate
  read : calls.run s (before ++ [(.access j load, some loaded)]) = some reserved
  between : calls.run reserved middle = some current
  write : calls.run current [(.access j store, some stored)] = some final
  regular
    : ∀ step ∈ before ++ [(.access j load, some loaded)] ++ middle
          ++ [(.access j store, some stored)],
        step.1.Regular s.mappings
  loadExclusive : load.IsExclusive .read
  storeExclusive : store.IsExclusive .write
  cpu : s.cpuOf j load = s.cpuOf j store
  ok : loaded.status = .ok

variable {before middle : List (Call × Option Response)} {store : Access}
variable {loaded stored : Response} {reserved current final : MemorySystem}

/-- The state after the exclusive read. -/
theorem ExclusivePair.reserve
    (pair : ExclusivePair s before middle j load store loaded stored reserved current final)
    : Kept s reserved
      ∧ ∃ m,
          reserved.Placed m load
          ∧ reserved.Guarded reserved.flat j (s.cpuOf j load) m load
          ∧ reserved.Reserved j (s.cpuOf j load) m load := by
  have regular := pair.regular
  simp only [List.append_assoc, List.mem_append, or_imp, forall_and] at regular
  have start : Kept s s :=
    ⟨pair.initial.invariant, pair.separate, .of_same rfl rfl, fun _ => rfl⟩
  obtain ⟨middle, ran, last⟩ :=
    Option.bind_eq_some_iff.mp ((Transition.System.run_append before _ s).symm.trans pair.read)
  obtain ⟨kept, -⟩ := start.run (fun _ => True) regular.1
    (fun _ _ _ _ _ _ _ _ _ => trivial) trivial ran
  rw [Transition.System.run_singleton] at last
  have performed := calls_step.mp last
  have contiguous : (Call.access j load).Regular s.mappings :=
    regular.2.1 _ (List.mem_singleton_self _)
  have again := kept.perform contiguous performed
  rw [← kept.stable.mappings] at contiguous
  obtain ⟨m, placed, guarded, reserved⟩ := kept.invariant.reserve kept.separate contiguous
    pair.loadExclusive performed pair.ok
  have stable := (kept.invariant.perform contiguous.contiguous performed).2
  rw [kept.cpuOf] at guarded reserved
  exact ⟨again, m, stable.placed placed, guarded, reserved⟩

/-- The exclusive write of a pair, whose response tells whether the locks were held. -/
theorem ExclusivePair.outcome
    (pair : ExclusivePair s before middle j load store loaded stored reserved current final)
    (kept : Kept s current)
    : Contiguous current.mappings store
      ∧ FlatMemory.mayRefuse store = true
      ∧ current.FlatOutcome j store stored final := by
  have contiguous : (Call.access j store).Regular s.mappings :=
    pair.regular (.access j store, some stored) (by simp)
  rw [← kept.stable.mappings] at contiguous
  have write := pair.write
  rw [Transition.System.run_singleton] at write
  obtain ⟨⟨response, same, outcome⟩, _⟩ :=
    kept.invariant.perform_monitored kept.separate contiguous (calls_step.mp write)
  obtain rfl := Option.some.inj same
  refine ⟨contiguous, ?_, outcome⟩
  unfold FlatMemory.mayRefuse
  rw [pair.storeExclusive.excl, pair.storeExclusive.debug, pair.storeExclusive.command]
  rfl

/-- A write that has succeeded is in a mapping, and its CPU held the locks. -/
theorem ExclusivePair.written
    (pair : ExclusivePair s before middle j load store loaded stored reserved current final)
    (kept : Kept s current) (succeeded : stored.bytes ≠ 0)
    : ∃ m,
        lookupMapping current.mappings (.ofAccess store.addr store.size) = some m
        ∧ current.Placed m store
        ∧ current.holdsLock j store = true := by
  obtain ⟨contiguous, may, outcome⟩ := pair.outcome kept
  rcases outcome with ⟨served, held⟩ | ⟨_, _, refused, _⟩
  · have answer : stored = (FlatMemory.access current.mappings current.flat store).1 :=
      congrArg Prod.fst served
    unfold FlatMemory.access at answer
    rcases contiguous.route with ⟨m, routed, placed⟩ | routed
    · refine ⟨m, routed, placed, held may ?_⟩
      rw [routed, pair.storeExclusive.command] at answer
      rw [answer]
      rfl
    · rw [routed] at answer
      exact absurd (congrArg Response.bytes answer) succeeded
  · exact absurd (congrArg Response.bytes refused) succeeded

/-- Exclusive accesses are atomic: where only quiet calls of all initiators are in between, an
exclusive write succeeds only inside the range of the exclusive read, and only if all bytes of that
range are as they were read.
-/
theorem exclusive_write_atomic
    (pair : ExclusivePair s before middle j load store loaded stored reserved current final)
    (quiet : ∀ step ∈ middle, step.1.Quiet s (s.cpuOf j load)) (succeeded : stored.bytes ≠ 0)
    : (AddressRange.ofAccess load.addr load.size).includes (.ofAccess store.addr store.size) = true
      ∧ ∀ addr,
          load.addr.toNat ≤ addr
          → addr < load.addr.toNat + load.size.toNat
          → current.flat addr = reserved.flat addr := by
  obtain ⟨kept, m, placed, guarded, _⟩ := pair.reserve
  have regular := pair.regular
  simp only [List.append_assoc, List.mem_append, or_imp, forall_and] at regular
  obtain ⟨keptToo, placedToo, guardedToo⟩ :=
    guarded.run kept placed regular.2.2.1 quiet pair.between
  obtain ⟨m', routed, placedStore, held⟩ := pair.written keptToo succeeded
  rw [holdsLock_eq routed, Bool.and_eq_true, keptToo.cpuOf, ← pair.cpu] at held
  obtain ⟨atPort, portMem, portCpu, portIncludes⟩ := TlmExmon.hasLock_iff.mp held.1
  obtain ⟨atMemory, mem, cpu, _⟩ := TlmExmon.hasLock_iff.mp held.2
  rw [guardedToo.port atPort portMem portCpu] at portIncludes
  refine ⟨portIncludes, ?_⟩
  -- The first byte of the write is in the range of the read, hence in its mapping.
  have same : m' = m := by
    have first := (AddressRange.includes_iff_ends.mp portIncludes).1
    apply keptToo.invariant.wellFormed.unique placedStore.mapped placedToo.mapped
      (AddressRange.includes_iff_ends.mp placedStore.includes).1
      (AddressRange.includesAddr_of_includes placedToo.includes first)
  subst same
  exact (guardedToo.memory atMemory mem cpu).2

/-- An exclusive write succeeds when no call in between writes to the range of the exclusive read,
and no other exclusive read of the same CPU takes its locks away.
-/
theorem exclusive_write_succeeds
    (pair : ExclusivePair s before middle j load store loaded stored reserved current final)
    (undisturbing
      : ∀ step ∈ middle,
          step.1.Undisturbing s (s.cpuOf j load) (.ofAccess load.addr load.size))
    (inside
      : (AddressRange.ofAccess load.addr load.size).includes (.ofAccess store.addr store.size)
        = true)
    : stored = { status := .ok, bytes := store.size, data := store.data }
      ∧ final.flat = current.flat.store store.addr.toNat store.size.toNat store.data := by
  obtain ⟨kept, m, placed, _, reserves⟩ := pair.reserve
  have regular := pair.regular
  simp only [List.append_assoc, List.mem_append, or_imp, forall_and] at regular
  obtain ⟨keptToo, placedToo, reservesToo⟩ :=
    reserves.run kept placed regular.2.2.1 undisturbing pair.between
  obtain ⟨contiguous, may, outcome⟩ := pair.outcome keptToo
  have wf := keptToo.invariant.wellFormed
  have ends := AddressRange.includes_iff_ends.mp inside
  have placedStore : current.Placed m store := by
    refine ⟨placedToo.mapped, ?_, contiguous⟩
    exact AddressRange.includes_iff_ends.mpr
      ⟨AddressRange.includesAddr_of_includes placedToo.includes ends.1,
        AddressRange.includesAddr_of_includes placedToo.includes ends.2⟩
  have routed := wf.lookup placedStore.mapped placedStore.includes
  have held : current.holdsLock j store = true := by
    rw [holdsLock_eq routed, Bool.and_eq_true, keptToo.cpuOf, ← pair.cpu]
    exact ⟨TlmExmon.hasLock_iff.mpr ⟨_, reservesToo.port, rfl, inside⟩,
      TlmExmon.hasLock_iff.mpr
        ⟨_, reservesToo.memory, rfl, placedToo.local_includes wf placedStore inside⟩⟩
  rcases outcome with ⟨served, _⟩ | ⟨_, unheld, _⟩
  · unfold FlatMemory.access at served
    rw [routed, pair.storeExclusive.command] at served
    exact Prod.mk.inj served
  · rw [held] at unheld
    cases unheld

-----------------------------------------------------------------------------------------
-- A run
-----------------------------------------------------------------------------------------

/-- Before its exclusive accesses, the core stores a word and gets a window. -/
def pairBefore : List (Call × Option Response) := sampleCalls.take 2

/-- The exclusive read of the word. -/
def pairLoad : Access :=
  { command := .read, addr := 0x80000008, data := 0, size := 8, info := { isExcl := true } }

/-- The core stores to another word through what is left of its window, and the loader reads the
locked word.
-/
def pairMiddle : List (Call × Option Response) :=
  [
    (.access 3 { command := .write, addr := 0x80000010, data := 5, size := 8 },
      some { status := .ok, bytes := 8, data := 5 }),
    (.access 1 { command := .read, addr := 0x80000008, data := 0, size := 8 },
      some { status := .ok, bytes := 8, data := 42 })
  ]

/-- The exclusive write of the word. -/
def pairStore : Access :=
  { command := .write, addr := 0x80000008, data := 43, size := 8, info := { isExcl := true } }

/-- What the two exclusive accesses return. -/
def pairResponse (word : Nat) : Response := { status := .ok, bytes := 8, data := word }

/-- The run is that of an exclusive pair. -/
theorem exclusivePair_sample
    : ∃ reserved current final,
        ExclusivePair defaultSystem pairBefore pairMiddle 3 pairLoad pairStore (pairResponse 42)
          (pairResponse 43) reserved current final := by
  have whole
      : (calls.run defaultSystem
          (pairBefore ++ [(.access 3 pairLoad, some (pairResponse 42))] ++ pairMiddle
            ++ [(.access 3 pairStore, some (pairResponse 43))])).isSome
        = true := by
    decide +kernel
  obtain ⟨final, ran⟩ := Option.isSome_iff_exists.mp whole
  rw [Transition.System.run_append] at ran
  obtain ⟨current, ran, write⟩ := Option.bind_eq_some_iff.mp ran
  rw [Transition.System.run_append] at ran
  obtain ⟨reserved, read, between⟩ := Option.bind_eq_some_iff.mp ran
  exact ⟨reserved, current, final, {
    initial := defaultSystem_built.initial defaultMemoryMap_proper.1 defaultMemoryMap_proper.2
    separate := defaultSystem_separate
    read, between, write
    regular := by decide +kernel
    loadExclusive := by decide
    storeExclusive := by decide
    cpu := rfl
    ok := rfl
  }⟩

/-- In the run the word is as it was read when the exclusive write succeeds. -/
theorem exclusive_write_atomic_sample
    : ∃ reserved current final : MemorySystem,
        ExclusivePair defaultSystem pairBefore pairMiddle 3 pairLoad pairStore (pairResponse 42)
          (pairResponse 43) reserved current final
        ∧ (AddressRange.ofAccess pairLoad.addr pairLoad.size).includes
            (.ofAccess pairStore.addr pairStore.size) = true
        ∧ ∀ addr,
            pairLoad.addr.toNat ≤ addr
            → addr < pairLoad.addr.toNat + pairLoad.size.toNat
            → current.flat addr = reserved.flat addr := by
  obtain ⟨reserved, current, final, pair⟩ := exclusivePair_sample
  exact ⟨reserved, current, final, pair,
    exclusive_write_atomic pair (by decide +kernel) (by decide)⟩

/-- In the run the exclusive write succeeds. -/
theorem exclusive_write_succeeds_sample
    : ∃ reserved current final : MemorySystem,
        ExclusivePair defaultSystem pairBefore pairMiddle 3 pairLoad pairStore (pairResponse 42)
          (pairResponse 43) reserved current final
        ∧ pairResponse 43 = { status := .ok, bytes := pairStore.size, data := pairStore.data }
        ∧ final.flat
          = current.flat.store pairStore.addr.toNat pairStore.size.toNat pairStore.data := by
  obtain ⟨reserved, current, final, pair⟩ := exclusivePair_sample
  exact ⟨reserved, current, final, pair,
    exclusive_write_succeeds pair (by decide +kernel) (by decide)⟩

end MemorySystem

end VcmlPydrofoil
