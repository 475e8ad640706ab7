import VcmlPydrofoil.Transport.Effects

/-! The memory behind a bus as its initiators see it: one byte at every mapped address. Where the
memories are apart on the host, each transaction is an access to this flat memory.
-/

namespace VcmlPydrofoil

open MemorySystem (Access Response Call)

-----------------------------------------------------------------------------------------
-- The flat memory
-----------------------------------------------------------------------------------------

namespace FlatMemory

/-- The mapping of an address, if there is one. -/
def mappingAt (mappings : List Mapping) (addr : Nat) : Option Mapping :=
  mappings.find? (fun m => decide (m.addr.start.toNat ≤ addr ∧ addr ≤ m.addr.last.toNat))

/-- The mapping that is found has the address. -/
theorem mem_of_mappingAt {mappings : List Mapping} {addr : Nat} {m : Mapping}
    (found : mappingAt mappings addr = some m)
    : m ∈ mappings ∧ m.addr.start.toNat ≤ addr ∧ addr ≤ m.addr.last.toNat := by
  unfold mappingAt at found
  have holds := List.find?_some found
  exact ⟨List.mem_of_find?_eq_some found, of_decide_eq_true holds⟩

/-- What an access returns and leaves when nothing refuses it. -/
def access (mappings : List Mapping) (bytes : ByteMemory) (a : Access) : Response × ByteMemory :=
  if (lookupMapping mappings (.ofAccess a.addr a.size)).isNone then
    ({ status := .addressError, bytes := 0, data := a.data }, bytes)
  else
    match a.command with
    | .read =>
        ({ status := .ok, bytes := a.size, data := bytes.load a.addr.toNat a.size.toNat }, bytes)
    | .write =>
        ({ status := .ok, bytes := a.size, data := a.data },
          bytes.store a.addr.toNat a.size.toNat a.data)
    | .ignore => ({ status := .ok, bytes := a.size, data := a.data }, bytes)

/-- Only an exclusive write can be refused. A debugger has no locks. -/
def mayRefuse (a : Access) : Bool := a.info.isExcl && !a.info.isDebug && a.command == .write

/-- The response to an exclusive write that was refused. -/
def refusal (a : Access) : Response := { status := .ok, bytes := 0, data := a.data }

/-- A refusal is no other response. -/
theorem access_ne_refusal (mappings : List Mapping) (bytes : ByteMemory) {a : Access}
    (nonempty : a.size ≠ 0) (write : a.command = .write)
    : (access mappings bytes a).1 ≠ refusal a := by
  unfold access refusal
  rw [write]
  split
  · simp
  · simpa using nonempty

/-- Fill the bytes of one target. -/
def fill (mappings : List Mapping) (target : Nat) (byte : BitVec 8) (bytes : ByteMemory)
    : ByteMemory :=
  fun addr =>
    if (mappingAt mappings addr).any (fun m => m.target == target) then byte else bytes addr

/-- The runs of a flat memory by the calls with their responses. A target without poison keeps its
bytes at a reset.
-/
def calls (mappings : List Mapping) (poison : Nat → BitVec 8)
    : Transition.System ByteMemory (Call × Option Response) where
  step bytes
    | (.access _ a, some response) =>
        let (answer, next) := access mappings bytes a
        if response = answer then some next
        else if mayRefuse a ∧ response = refusal a then some bytes
        else none
    | (.requestDmi _ _, none) => some bytes
    | (.reset target, none) =>
        if poison target > 0 then some (fill mappings target (poison target) bytes)
        else some bytes
    | _ => none

end FlatMemory

namespace MemorySystem

variable {s : MemorySystem}

/-- Where the host keeps the byte that a mapping puts at an address. -/
def hostOf (s : MemorySystem) (m : Mapping) (addr : Nat) : Nat :=
  (s.memories m.target).memory.dmi.ptr.toNat + (addr - m.addr.start.toNat)

/-- The flat memory of a memory system; a byte that is not mapped is zero. -/
def flat (s : MemorySystem) : ByteMemory :=
  fun addr =>
    match FlatMemory.mappingAt s.mappings addr with
    | some m => s.host (s.hostOf m addr)
    | none => 0

/-- Memories that keep their bytes apart on the host, and let everyone write. -/
structure Separate (s : MemorySystem) : Prop where
  bounded
    : ∀ m ∈ s.mappings,
        (s.memories m.target).memory.dmi.ptr.toNat + (s.memories m.target).memory.dmi.last.toNat
        < 2 ^ 64
  disjoint
    : ∀ first ∈ s.mappings, ∀ second ∈ s.mappings,
        first ≠ second
        → (s.memories first.target).memory.dmi.ptr.toNat
              + (s.memories first.target).memory.dmi.last.toNat
            < (s.memories second.target).memory.dmi.ptr.toNat
          ∨ (s.memories second.target).memory.dmi.ptr.toNat
              + (s.memories second.target).memory.dmi.last.toNat
            < (s.memories first.target).memory.dmi.ptr.toNat
  writable
    : ∀ m ∈ s.mappings,
        (s.memories m.target).memory.dmi.access = .readWrite
        ∧ (s.memories m.target).memory.discard = false

-----------------------------------------------------------------------------------------
-- The view
-----------------------------------------------------------------------------------------

/-- The mapping of an address is the one that has it. -/
theorem WellFormed.mappingAt (wf : s.WellFormed) {m : Mapping} (mapped : m ∈ s.mappings)
    (addr : Nat) (lower : m.addr.start.toNat ≤ addr) (upper : addr ≤ m.addr.last.toNat)
    : FlatMemory.mappingAt s.mappings addr = some m := by
  have bound : addr < 2 ^ 64 := upper.trans_lt m.addr.last.isLt
  have same : (BitVec.ofNat 64 addr).toNat = addr := by
    rw [BitVec.toNat_ofNat, Nat.mod_eq_of_lt bound]
  cases found : FlatMemory.mappingAt s.mappings addr with
  | none =>
      have fails := List.find?_eq_none.mp found m mapped
      exact absurd (decide_eq_true ⟨lower, upper⟩) fails
  | some other =>
      obtain ⟨otherMapped, inside⟩ := FlatMemory.mem_of_mappingAt found
      congr 1
      have there : ∀ r : AddressRange, r.start.toNat ≤ addr → addr ≤ r.last.toNat
          → r.includesAddr (BitVec.ofNat 64 addr) = true := by
        intro r lower upper
        rw [AddressRange.includesAddr_iff, same]
        exact ⟨lower, upper⟩
      exact wf.unique otherMapped mapped (there other.addr inside.1 inside.2)
        (there m.addr lower upper)

/-- A mapped byte of the flat memory. -/
theorem WellFormed.flat (wf : s.WellFormed) {m : Mapping} (mapped : m ∈ s.mappings) (addr : Nat)
    (lower : m.addr.start.toNat ≤ addr) (upper : addr ≤ m.addr.last.toNat)
    : s.flat addr = s.host (s.hostOf m addr) := by
  rw [MemorySystem.flat, wf.mappingAt mapped addr lower upper]

/-- The flat memory depends on the host's memory only, as long as mappings and memories stay. -/
theorem Stable.flat {next : MemorySystem} (stable : s.Stable next) (host : next.host = s.host)
    : next.flat = s.flat := by
  funext addr
  unfold MemorySystem.flat
  rw [stable.mappings, host]
  cases FlatMemory.mappingAt s.mappings addr with
  | none => rfl
  | some m =>
      obtain ⟨exmon, same⟩ := stable.memories m.target
      simp only [hostOf, same]

/-- Memories stay apart. -/
theorem Separate.of_stable (separate : s.Separate) {next : MemorySystem} (stable : s.Stable next)
    : next.Separate := by
  have same : ∀ target, (next.memories target).memory = (s.memories target).memory := by
    intro target
    obtain ⟨exmon, same⟩ := stable.memories target
    rw [same]
  refine ⟨?_, ?_, ?_⟩
  all_goals
    simp only [same, stable.mappings]
  · exact separate.bounded
  · exact separate.disjoint
  · exact separate.writable

/-- Where an access in a mapping is on the host. -/
structure Placed (s : MemorySystem) (m : Mapping) (a : Access) : Prop where
  mapped : m ∈ s.mappings
  includes : m.addr.includes (.ofAccess a.addr a.size) = true
  contiguous : Contiguous s.mappings a

/-- The pointer of an access. -/
def pointerOf (s : MemorySystem) (m : Mapping) (a : Access) : BitVec 64 :=
  (s.memories m.target).memory.dmi.ptr + (a.addr - m.addr.start)

/-- The bytes of an access with consecutive bytes. -/
theorem Contiguous.last {mappings : List Mapping} {a : Access}
    (contiguous : Contiguous mappings a)
    : (AddressRange.ofAccess a.addr a.size).last.toNat = a.addr.toNat + a.size.toNat - 1
      ∧ 0 < a.size.toNat := by
  have ordered := contiguous.ordered
  have positive : 0 < a.size.toNat := by
    apply Nat.pos_of_ne_zero
    intro zero
    exact contiguous.nonempty (BitVec.eq_of_toNat_eq zero)
  refine ⟨?_, positive⟩
  have wide : (a.size.setWidth 64).toNat = a.size.toNat := by
    rw [BitVec.toNat_setWidth, Nat.mod_eq_of_lt]
    have := a.size.isLt
    omega
  have small := a.size.isLt
  simp only [AddressRange.ofAccess] at ordered ⊢
  bv_omega

/-- The addresses of a placed access are those of its mapping. -/
theorem Placed.bounds {m : Mapping} {a : Access} (placed : s.Placed m a)
    : m.addr.start.toNat ≤ a.addr.toNat
      ∧ a.addr.toNat + a.size.toNat - 1 ≤ m.addr.last.toNat
      ∧ 0 < a.size.toNat := by
  obtain ⟨last, positive⟩ := placed.contiguous.last
  have ends := AddressRange.includes_iff_ends.mp placed.includes
  rw [AddressRange.includesAddr_iff, AddressRange.includesAddr_iff, last] at ends
  exact ⟨ends.1.1, ends.2.2, positive⟩

/-- The pointer is where the host keeps the first byte. -/
theorem Placed.pointer {m : Mapping} {a : Access} (placed : s.Placed m a) (wf : s.WellFormed)
    (separate : s.Separate)
    : (s.pointerOf m a).toNat = s.hostOf m a.addr.toNat := by
  have bounded := separate.bounded m placed.mapped
  have within := (wf.fits m placed.mapped).within
  obtain ⟨lower, upper, positive⟩ := placed.bounds
  unfold pointerOf hostOf
  bv_omega

/-- A load through the pointer is one of the flat memory. -/
theorem Placed.load {m : Mapping} {a : Access} (placed : s.Placed m a) (wf : s.WellFormed)
    (separate : s.Separate)
    : s.host.load (s.pointerOf m a).toNat a.size.toNat = s.flat.load a.addr.toNat a.size.toNat := by
  rw [placed.pointer wf separate]
  obtain ⟨lower, upper, _⟩ := placed.bounds
  apply ByteMemory.load_translate
  intro i bound
  rw [wf.flat placed.mapped (a.addr.toNat + i) (by omega) (by omega)]
  unfold hostOf
  congr 1
  omega

/-- A store through the pointer is one of the flat memory: no other mapping has its bytes. -/
theorem Placed.store {m : Mapping} {a : Access} (placed : s.Placed m a) (wf : s.WellFormed)
    (separate : s.Separate)
    : ({ s with host := s.host.store (s.pointerOf m a).toNat a.size.toNat a.data }
        : MemorySystem).flat
      = s.flat.store a.addr.toNat a.size.toNat a.data := by
  rw [placed.pointer wf separate]
  obtain ⟨lower, upper, _⟩ := placed.bounds
  have within := (wf.fits m placed.mapped).within
  funext addr
  rw [ByteMemory.store_apply]
  unfold MemorySystem.flat
  cases at_addr : FlatMemory.mappingAt s.mappings addr with
  | none =>
      rw [if_neg]
      intro inside
      rw [wf.mappingAt placed.mapped addr (by omega) (by omega)] at at_addr
      cases at_addr
  | some other =>
      obtain ⟨mapped, inside⟩ := FlatMemory.mem_of_mappingAt at_addr
      show s.host.store (s.hostOf m a.addr.toNat) a.size.toNat a.data (s.hostOf other addr) = _
      rw [ByteMemory.store_apply]
      by_cases same : other = m
      · subst same
        have moved : s.hostOf other addr - s.hostOf other a.addr.toNat = addr - a.addr.toNat := by
          unfold hostOf
          omega
        rw [moved]
        apply if_congr _ rfl rfl
        unfold hostOf
        omega
      · have apart := separate.disjoint other mapped m placed.mapped same
        have otherWithin := (wf.fits other mapped).within
        rw [if_neg, if_neg]
        · intro common
          rw [wf.mappingAt placed.mapped addr (by omega) (by omega)] at at_addr
          exact same (Option.some.inj at_addr).symm
        · unfold hostOf
          omega

-----------------------------------------------------------------------------------------
-- Invalidation succeeds
-----------------------------------------------------------------------------------------

/-- The range that is passed on for a mapping is ordered when the request is. -/
theorem invalidationOf_ordered {m : Mapping} {memory : GenericMemory} (fits : m.Fits memory)
    {target : Nat} {start last : BitVec 64} (ordered : start.toNat ≤ last.toNat)
    {r : AddressRange} (passedOn : invalidationOf target start last m = some r)
    : r.start.toNat ≤ r.last.toNat := by
  have below := fits.below
  have within := fits.within
  have mappingOrdered := fits.ordered
  have length : m.addr.length.toNat = m.addr.last.toNat - m.addr.start.toNat + 1 := by
    unfold AddressRange.length
    bv_omega
  have first : (if start > m.offset then start - m.offset else 0) = start := by
    rw [fits.offset]
    split <;> bv_omega
  have final : (if last ≠ BitVec.allOnes 64 then last - m.offset else last) = last := by
    rw [fits.offset]
    split <;> simp
  unfold invalidationOf at passedOn
  simp only [first, final, ge_iff_le, BitVec.le_def] at passedOn
  split at passedOn
  · cases passedOn
  · split at passedOn
    · cases passedOn
    · split at passedOn
      · cases passedOn
      · obtain rfl := Option.some.inj passedOn
        simp only
        split <;> bv_omega

/-- An ordered invalidation request is no error, and changes the initiators only. -/
theorem WellFormed.invalidateDirectMemPtr (wf : s.WellFormed) (target : Nat)
    {start last : BitVec 64} (ordered : start.toNat ≤ last.toNat)
    : ∃ initiators, s.invalidateDirectMemPtr target start last = some { s with initiators } := by
  have proper : ¬ start > last := by
    rw [gt_iff_lt, BitVec.lt_def]
    omega
  have all
      : (s.mappings.filterMap (invalidationOf target start last)).any (fun r => r.start > r.last)
        = false := by
    rw [List.any_eq_false]
    intro r mem
    obtain ⟨m, mapped, passedOn⟩ := List.mem_filterMap.mp mem
    have := invalidationOf_ordered (wf.fits m mapped) ordered passedOn
    rw [decide_eq_true_eq, gt_iff_lt, BitVec.lt_def]
    omega
  unfold MemorySystem.invalidateDirectMemPtr
  simp only [all, Bool.or_false, decide_eq_true_eq, if_neg proper]
  exact ⟨_, rfl⟩

-----------------------------------------------------------------------------------------
-- Transactions
-----------------------------------------------------------------------------------------

variable {m : Mapping} {a : Access}

theorem Stable.placed {next : MemorySystem} (stable : s.Stable next) (placed : s.Placed m a)
    : next.Placed m a :=
  ⟨stable.mappings ▸ placed.mapped, placed.includes, stable.mappings ▸ placed.contiguous⟩

theorem Stable.pointerOf {next : MemorySystem} (stable : s.Stable next) (m : Mapping) (a : Access)
    : next.pointerOf m a = s.pointerOf m a := by
  obtain ⟨exmon, same⟩ := stable.memories m.target
  unfold MemorySystem.pointerOf
  rw [same]

/-- The memory of a mapping serves every access that the mapping includes. -/
theorem Placed.memoryTransport (placed : s.Placed m a) (wf : s.WellFormed) (separate : s.Separate)
    (tx : TlmPayload) (command : tx.command = a.command) (size : tx.size = a.size)
    (data : tx.data = a.data) (debug : tx.sbi.isDebug = a.info.isDebug)
    (address : tx.address = a.addr - m.addr.start + m.offset)
    : ∃ delay,
        s.memoryTransport m.target tx
        = {
          tx := { tx with status := .ok, data := dataAfter s.host a (s.pointerOf m a) }
          delay
          system := { s with host := hostAfter s.host a (s.pointerOf m a) }
        } := by
  have fits := wf.fits m placed.mapped
  by_cases ignored : a.command = .ignore
  · unfold MemorySystem.memoryTransport
    rw [command, ignored]
    simp only [dataAfter, hostAfter, ignored, ← data]
    exact ⟨_, rfl⟩
  · have writable := (separate.writable m placed.mapped).1
    have inside : tx.range.last.toNat ≤ (s.memories m.target).memory.dmi.last.toNat := by
      rw [TlmPayload.range, address, size]
      exact local_range_inside fits placed.includes
    have allowed : ∀ rwx, (s.memories m.target).memory.dmi.checkAccess rwx = true := by
      intro rwx
      cases rwx <;>
        simp [TlmDmi.checkAccess, TlmDmi.isReadAllowed, TlmDmi.isWriteAllowed, writable]
    have pointer : (s.memories m.target).memory.dmi.ptr + tx.address = s.pointerOf m a := by
      rw [address, fits.offset]
      simp [MemorySystem.pointerOf]
    rw [memoryTransport_inside (wf.regular m placed.mapped) ignored command size data debug inside
      (allowed _), pointer]
    exact ⟨_, rfl⟩

/-- The CPU whose lock an access sets or needs. -/
def cpuOf (s : MemorySystem) (j : Nat) (a : Access) : BitVec 32 :=
  (s.setup j a).sbi.cpuid.setWidth 32

/-- The CPU of an access holds the locks of its range that an exclusive write needs: one at the port,
and one at the memory that the access is for.
-/
def holdsLock (s : MemorySystem) (j : Nat) (a : Access) : Bool :=
  (s.ports j).exmon.hasLock (s.cpuOf j a) (.ofAccess a.addr a.size)
  && (lookupMapping s.mappings (.ofAccess a.addr a.size)).all (fun m =>
      (s.memories m.target).socket.exmon.hasLock (s.cpuOf j a)
        (.ofAccess (a.addr - m.addr.start + m.offset) a.size))

/-- A transaction that a memory has served, which needs the locks if it may be refused. -/
structure Served (s : MemorySystem) (m : Mapping) (a : Access) (held : Bool) (done : Transported)
    : Prop where
  held : FlatMemory.mayRefuse a = true → held = true
  status : done.tx.status = .ok
  data : done.tx.data = dataAfter s.host a (s.pointerOf m a)
  excl : done.tx.sbi.isExcl = a.info.isExcl
  host : done.system.host = hostAfter s.host a (s.pointerOf m a)

/-- A transaction that a monitor has refused. -/
structure Refused (s : MemorySystem) (a : Access) (held : Bool) (done : Transported) : Prop where
  held : held = false
  exclusive : a.info.isExcl = true
  write : a.command = .write
  status : done.tx.status = .ok
  data : done.tx.data = a.data
  excl : done.tx.sbi.isExcl = false
  host : done.system.host = s.host

/-- A monitor lets a transaction proceed as it is, or refuses an exclusive write without a lock. -/
theorem update_cases (locks : TlmExmon) (tx : TlmPayload)
    : (locks.update tx).1 = true
        ∧ (locks.update tx).2.1.sbi = tx.sbi
        ∧ (tx.sbi.isExcl = true → tx.command = .write
          → locks.hasLock (tx.sbi.cpuid.setWidth 32) tx.range = true)
      ∨ (locks.update tx).1 = false
        ∧ (locks.update tx).2.1.sbi.isExcl = false
        ∧ tx.sbi.isExcl = true
        ∧ tx.command = .write
        ∧ locks.hasLock (tx.sbi.cpuid.setWidth 32) tx.range = false := by
  obtain ⟨command, address, size, data, allowed, status, ⟨isDebug, isNodmi, isExcl, cpuid⟩⟩ := tx
  unfold TlmExmon.update
  cases isExcl
  · cases command <;> exact .inl ⟨rfl, rfl, fun excl => absurd excl Bool.false_ne_true⟩
  · cases command with
    | read => exact .inl ⟨rfl, rfl, fun _ write => by cases write⟩
    | ignore => exact .inl ⟨rfl, rfl, fun _ write => by cases write⟩
    | write =>
        cases held : locks.hasLock (cpuid.setWidth 32) (.ofAccess address size) with
        | true =>
            left
            simp only [TlmPayload.range, held]
            exact ⟨rfl, rfl, fun _ _ => trivial⟩
        | false =>
            right
            simp only [TlmPayload.range, held]
            exact ⟨rfl, rfl, trivial, trivial, trivial⟩

/-- The memory's side of a transaction. -/
theorem Placed.socketTransport (placed : s.Placed m a) (wf : s.WellFormed) (separate : s.Separate)
    (tx : TlmPayload) (command : tx.command = a.command) (size : tx.size = a.size)
    (data : tx.data = a.data) (debug : tx.sbi.isDebug = a.info.isDebug)
    (excl : tx.sbi.isExcl = a.info.isExcl)
    (address : tx.address = a.addr - m.addr.start + m.offset)
    : ∃ done,
        s.socketTransport m.target tx = some done
        ∧ (s.Served m a
              ((s.memories m.target).socket.exmon.hasLock (tx.sbi.cpuid.setWidth 32) tx.range) done
          ∨ s.Refused a
              ((s.memories m.target).socket.exmon.hasLock (tx.sbi.cpuid.setWidth 32) tx.range)
              done) := by
  have range : tx.range = .ofAccess (a.addr - m.addr.start + m.offset) a.size := by
    rw [TlmPayload.range, address, size]
  have ordered : tx.range.start.toNat ≤ tx.range.last.toNat := by
    have ends := AddressRange.includes_iff_ends.mp placed.includes
    have := local_address ends.1
    have := local_address ends.2
    have := placed.contiguous.ordered
    rw [range, local_range (wf.fits m placed.mapped)]
    simp only
    omega
  unfold MemorySystem.socketTransport
  rw [socketLookup_regular (wf.regular m placed.mapped)]
  generalize (if (s.memories m.target).socket.allowDmi
      && (s.memories m.target).memory.dmi.range.includes tx.range
      && (s.memories m.target).memory.dmi.checkAccess (tlmCommandToAccess tx.command) then
    some (s.memories m.target).memory.dmi else none) = found
  simp only [setSocket_self]
  have invalidated
      : ∃ initiators,
          (if found.isSome && (tx.sbi.isExcl && tx.command == .read) then
            s.invalidateDirectMemPtr m.target tx.range.start tx.range.last
          else some s) = some { s with initiators } := by
    split
    · exact wf.invalidateDirectMemPtr m.target ordered
    · exact ⟨s.initiators, rfl⟩
  obtain ⟨initiators, invalidated⟩ := invalidated
  rw [invalidated, Option.map_some]
  refine ⟨_, rfl, ?_⟩
  have cases := update_cases (s.memories m.target).socket.exmon
    { tx with isDmiAllowed := found.isSome && !(tx.sbi.isExcl && tx.command == .read) }
  obtain ⟨allowed, isExcl, payload⟩ := TlmExmon.update_payload (s.memories m.target).socket.exmon
    { tx with isDmiAllowed := found.isSome && !(tx.sbi.isExcl && tx.command == .read) }
  generalize (s.memories m.target).socket.exmon.update
    { tx with isDmiAllowed := found.isSome && !(tx.sbi.isExcl && tx.command == .read) } = updated
    at cases payload ⊢
  obtain ⟨proceed, inner, exmon⟩ := updated
  simp only at cases payload ⊢
  rcases cases with ⟨rfl, sbi, locked⟩ | ⟨rfl, stopped, wasExcl, wasWrite, unlocked⟩
  · left
    rw [if_pos rfl]
    have stable
        : s.Stable (({ s with initiators } : MemorySystem).setSocket m.target
            { (s.memories m.target).socket with exmon }) :=
      ⟨rfl, fun target =>
        (setSocket_locks (fun _ => True) (fun _ _ => .inr trivial) target).1⟩
    obtain ⟨delay, transported⟩ := (stable.placed placed).memoryTransport (wf.of_stable stable)
      (separate.of_stable stable) inner (by rw [payload, ← command])
      (by rw [payload, ← size]) (by rw [payload, ← data]) (by rw [sbi, ← debug])
      (by rw [payload, ← address])
    rw [transported, stable.pointerOf]
    refine ⟨?_, rfl, rfl, by rw [← excl]; exact congrArg TlmSbi.isExcl sbi, rfl⟩
    intro may
    simp only [FlatMemory.mayRefuse, Bool.and_eq_true, beq_iff_eq] at may
    exact locked (excl.trans may.1.1) (command.trans may.2)
  · right
    rw [if_neg (by simp)]
    exact ⟨unlocked, excl ▸ wasExcl, command ▸ wasWrite, rfl, by rw [payload]; exact data, stopped, rfl⟩

/-- A transaction outside all mappings. -/
structure Unrouted (s : MemorySystem) (a : Access) (done : Transported) : Prop where
  status : done.tx.status = .addressError
  data : done.tx.data = a.data
  host : done.system.host = s.host

/-- An access is in one mapping or in none. -/
theorem Contiguous.route (contiguous : Contiguous s.mappings a)
    : (∃ m, lookupMapping s.mappings (.ofAccess a.addr a.size) = some m ∧ s.Placed m a)
      ∨ lookupMapping s.mappings (.ofAccess a.addr a.size) = none := by
  cases routed : lookupMapping s.mappings (.ofAccess a.addr a.size) with
  | none => exact .inr rfl
  | some m =>
      have includes := List.find?_some routed
      exact .inl ⟨m, rfl, List.mem_of_find?_eq_some routed, includes, contiguous⟩

/-- The locks that an access in a mapping needs. -/
theorem holdsLock_eq {j : Nat}
    (routed : lookupMapping s.mappings (.ofAccess a.addr a.size) = some m)
    : s.holdsLock j a
      = ((s.ports j).exmon.hasLock (s.cpuOf j a) (.ofAccess a.addr a.size)
        && (s.memories m.target).socket.exmon.hasLock (s.cpuOf j a)
          (.ofAccess (a.addr - m.addr.start + m.offset) a.size)) := by
  unfold holdsLock
  rw [routed]
  rfl

/-- A transaction of an initiator is served, refused, or not in any mapping. It never fails. -/
theorem WellFormed.portTransport (wf : s.WellFormed) (separate : s.Separate) (j : Nat)
    (contiguous : Contiguous s.mappings a)
    : ∃ done,
        s.portTransport j (s.setup j a) = some done
        ∧ ((∃ m, lookupMapping s.mappings (.ofAccess a.addr a.size) = some m
              ∧ s.Placed m a ∧ s.Served m a (s.holdsLock j a) done)
          ∨ s.Refused a (s.holdsLock j a) done
          ∨ lookupMapping s.mappings (.ofAccess a.addr a.size) = none ∧ s.Unrouted a done) := by
  have cases := update_cases (s.ports j).exmon { s.setup j a with isDmiAllowed := false }
  obtain ⟨allowed, isExcl, payload⟩ :=
    TlmExmon.update_payload (s.ports j).exmon { s.setup j a with isDmiAllowed := false }
  unfold MemorySystem.portTransport
  generalize (s.ports j).exmon.update { s.setup j a with isDmiAllowed := false } = updated
    at cases payload ⊢
  obtain ⟨proceed, inner, exmon⟩ := updated
  simp only at cases payload ⊢
  have stable : s.Stable (s.setPort j { s.ports j with exmon }) := .of_same rfl rfl
  rcases cases with ⟨rfl, sbi, locked⟩ | ⟨rfl, stopped, wasExcl, wasWrite, unlocked⟩
  · rw [if_pos rfl]
    unfold MemorySystem.busTransport
    rw [show (s.setPort j { s.ports j with exmon }).mappings = s.mappings from rfl,
      show inner.range = .ofAccess a.addr a.size by rw [payload]; rfl]
    rcases contiguous.route with ⟨m, routed, placed⟩ | routed
    · rw [routed]
      simp only
      obtain ⟨done, transported, outcome⟩ := (stable.placed placed).socketTransport
        (wf.of_stable stable) (separate.of_stable stable)
        { inner with address := inner.address - m.addr.start + m.offset } (by rw [payload]; rfl) (by rw [payload]; rfl) (by rw [payload]; rfl) (by rw [sbi]; rfl)
        (by rw [sbi]; rfl) (by rw [payload]; rfl)
      have range
          : ({ inner with address := inner.address - m.addr.start + m.offset } : TlmPayload).range
            = .ofAccess (a.addr - m.addr.start + m.offset) a.size := by
        rw [payload]
        rfl
      rw [transported, Option.map_some]
      refine ⟨_, rfl, ?_⟩
      rcases outcome with served | refused
      · left
        refine ⟨m, rfl, placed, ?_, served.status, ?_, served.excl, ?_⟩
        · intro may
          have atMemory := served.held may
          rw [range, sbi] at atMemory
          simp only [FlatMemory.mayRefuse, Bool.and_eq_true, beq_iff_eq] at may
          rw [holdsLock_eq routed, Bool.and_eq_true]
          exact ⟨locked may.1.1 may.2, atMemory⟩
        · exact served.data.trans (by rw [stable.pointerOf]; rfl)
        · exact served.host.trans (by rw [stable.pointerOf]; rfl)
      · have atMemory := refused.held
        rw [range, sbi] at atMemory
        refine .inr (.inl ⟨?_, refused.exclusive, refused.write, refused.status, refused.data,
          refused.excl, refused.host⟩)
        rw [holdsLock_eq routed, Bool.and_eq_false_iff]
        exact .inr atMemory
    · rw [routed]
      exact ⟨_, rfl, .inr (.inr ⟨rfl, rfl, by rw [payload]; rfl, rfl⟩)⟩
  · rw [if_neg (by simp)]
    refine ⟨_, rfl, .inr (.inl ⟨?_, wasExcl, wasWrite, rfl, by rw [payload]; rfl, stopped, rfl⟩)⟩
    exact Bool.and_eq_false_iff.mpr (.inl unlocked)

/-- A transaction of a debugger is served, or not in any mapping. -/
theorem WellFormed.transportDbg (wf : s.WellFormed) (separate : s.Separate) (j : Nat)
    (contiguous : Contiguous s.mappings a)
    : (∃ m, lookupMapping s.mappings (.ofAccess a.addr a.size) = some m
          ∧ s.Placed m a ∧ (a.info.isDebug = true → s.Served m a false (s.transportDbg (s.setup j a))))
      ∨ lookupMapping s.mappings (.ofAccess a.addr a.size) = none
        ∧ s.Unrouted a (s.transportDbg (s.setup j a)) := by
  unfold MemorySystem.transportDbg
  rw [show (s.setup j a).range = .ofAccess a.addr a.size from rfl]
  rcases contiguous.route with ⟨m, routed, placed⟩ | routed
  · left
    rw [routed]
    simp only
    obtain ⟨delay, transported⟩ := placed.memoryTransport wf separate
      { s.setup j a with address := (s.setup j a).address - m.addr.start + m.offset } rfl rfl rfl rfl rfl
    rw [transported]
    refine ⟨m, rfl, placed, fun debug => ⟨?_, rfl, rfl, rfl, rfl⟩⟩
    intro may
    simp [FlatMemory.mayRefuse, debug] at may
  · right
    rw [routed]
    exact ⟨rfl, rfl, rfl, rfl⟩

-----------------------------------------------------------------------------------------
-- Responses
-----------------------------------------------------------------------------------------

/-- The response to a served transaction, and the flat memory it leaves. -/
theorem Served.flat {held : Bool} {done : Transported} (served : s.Served m a held done) (placed : s.Placed m a)
    (wf : s.WellFormed) (separate : s.Separate)
    (routed : lookupMapping s.mappings (.ofAccess a.addr a.size) = some m)
    (stable : s.Stable done.system)
    : (respond a done.tx, done.system.flat) = FlatMemory.access s.mappings s.flat a := by
  have response
      : respond a done.tx
        = { status := .ok, bytes := a.size, data := dataAfter s.host a (s.pointerOf m a) } := by
    unfold respond
    rw [served.status, served.data, served.excl]
    cases a.info.isExcl <;> rfl
  have written
      : done.system.flat
        = ({ s with host := hostAfter s.host a (s.pointerOf m a) } : MemorySystem).flat :=
    Stable.flat (s := { s with host := hostAfter s.host a (s.pointerOf m a) })
      ⟨stable.mappings, stable.memories⟩ served.host
  rw [response, written]
  unfold FlatMemory.access dataAfter hostAfter
  rw [routed]
  cases a.command with
  | read =>
      simp only [placed.load wf separate]
      rfl
  | write =>
      simp only [if_true, placed.store wf separate]
      rfl
  | ignore => rfl

/-- The response to a refused transaction. -/
theorem Refused.flat {held : Bool} {done : Transported} (refused : s.Refused a held done)
    (stable : s.Stable done.system)
    : respond a done.tx = FlatMemory.refusal a ∧ done.system.flat = s.flat := by
  refine ⟨?_, stable.flat refused.host⟩
  unfold respond FlatMemory.refusal
  rw [refused.status, refused.data, refused.excl, refused.exclusive]
  rfl

/-- The response to a transaction outside all mappings. -/
theorem Unrouted.flat {done : Transported} (unrouted : s.Unrouted a done)
    (routed : lookupMapping s.mappings (.ofAccess a.addr a.size) = none)
    (stable : s.Stable done.system)
    : (respond a done.tx, done.system.flat) = FlatMemory.access s.mappings s.flat a := by
  have response
      : respond a done.tx = { status := .addressError, bytes := 0, data := a.data } := by
    unfold respond
    rw [unrouted.status, unrouted.data]
    rfl
  rw [response, stable.flat unrouted.host]
  unfold FlatMemory.access
  rw [routed]
  rfl

end MemorySystem

end VcmlPydrofoil
