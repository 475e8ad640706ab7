import VcmlPydrofoil.Correctness.DirectAccess
import VcmlPydrofoil.Transport.FlatMemory

/-! The memory system is one flat memory. Whatever the initiators do, with or without direct memory
access, no call fails, and the responses are those of a memory with a byte at every mapped address,
in which only an exclusive write without the locks is refused.
-/

namespace VcmlPydrofoil

namespace MemorySystem

variable {s : MemorySystem}

-----------------------------------------------------------------------------------------
-- One call
-----------------------------------------------------------------------------------------

/-- What the flat memory allows an access to return and leave. Only an exclusive write without the
locks is refused.
-/
def FlatOutcome (s : MemorySystem) (j : Nat) (a : Access) (response : Response)
    (next : MemorySystem)
    : Prop :=
  ((response, next.flat) = FlatMemory.access s.mappings s.flat a
    ∧ (FlatMemory.mayRefuse a = true → response.status = .ok → s.holdsLock j a = true))
  ∨ (FlatMemory.mayRefuse a = true
    ∧ s.holdsLock j a = false
    ∧ response = FlatMemory.refusal a
    ∧ next.flat = s.flat)

/-- Every transaction with consecutive bytes completes as the flat memory allows. -/
theorem WellFormed.send (wf : s.WellFormed) (separate : s.Separate) (j : Nat) {a : Access}
    (contiguous : Contiguous s.mappings a)
    : ∃ response pending next,
        s.send j a = some (response, pending, next) ∧ s.FlatOutcome j a response next := by
  unfold MemorySystem.send
  rw [if_neg contiguous.nonempty]
  cases debug : a.info.isDebug with
  | true =>
      obtain ⟨host, system⟩ := transportDbg_system s (s.setup j a)
      have stable : s.Stable (s.transportDbg (s.setup j a)).system := by
        rw [system]
        exact .of_same rfl rfl
      refine ⟨_, _, _, rfl, .inl ⟨?_, ?_⟩⟩
      · rcases wf.transportDbg separate j contiguous with ⟨m, routed, placed, served⟩
          | ⟨routed, outside⟩
        · exact (served debug).flat placed wf separate routed stable
        · exact outside.flat routed stable
      · intro may
        simp [FlatMemory.mayRefuse, debug] at may
  | false =>
      obtain ⟨done, transported, outcome⟩ := wf.portTransport separate j contiguous
      rw [transported]
      have stable := (portTransport_effect wf transported).stable
      have later : (done.system.advance j done.delay).flat = done.system.flat :=
        Stable.flat (.of_same rfl rfl) rfl
      refine ⟨_, _, _, rfl, ?_⟩
      unfold FlatOutcome
      rw [later]
      rcases outcome with ⟨m, routed, placed, served⟩ | refused | ⟨routed, outside⟩
      · exact .inl ⟨served.flat placed wf separate routed stable, fun may _ => served.held may⟩
      · right
        refine ⟨?_, refused.held, refused.flat stable⟩
        unfold FlatMemory.mayRefuse
        rw [refused.exclusive, debug, refused.write]
        rfl
      · refine .inl ⟨outside.flat routed stable, ?_⟩
        intro _ ok
        simp [respond, outside.status] at ok

/-- The calls that the flat memory is about: the bytes of an access are consecutive, and a memory
that is reset is mapped.
-/
def Call.Regular (mappings : List Mapping) : Call → Prop
  | .access _ a => MemorySystem.Contiguous mappings a
  | .requestDmi _ _ => True
  | .reset target => ∃ m ∈ mappings, m.target = target

instance (mappings : List Mapping) (call : Call) : Decidable (call.Regular mappings) :=
  match call with
  | .access _ a => inferInstanceAs (Decidable (MemorySystem.Contiguous mappings a))
  | .requestDmi _ _ => inferInstanceAs (Decidable True)
  | .reset target => inferInstanceAs (Decidable (∃ m ∈ mappings, m.target = target))

theorem Call.Regular.contiguous {mappings : List Mapping} {call : Call}
    (regular : call.Regular mappings)
    : call.Contiguous mappings := by
  cases call with
  | access => exact regular
  | requestDmi => trivial
  | reset => trivial

/-- The poison of each memory. -/
def poisons (s : MemorySystem) (target : Nat) : BitVec 8 := (s.memories target).poison

/-- The step of the flat memory for an allowed access. -/
theorem FlatOutcome.step {j : Nat} {a : Access} {response : Response} {next : MemorySystem}
    (outcome : s.FlatOutcome j a response next) (nonempty : a.size ≠ 0)
    : (FlatMemory.calls s.mappings s.poisons).step s.flat (.access j a, some response)
      = some next.flat := by
  simp only [FlatMemory.calls]
  rcases outcome with ⟨served, _⟩ | ⟨may, _, rfl, kept⟩
  · rw [← served]
    exact if_pos rfl
  · have write : a.command = .write := by
      simp only [FlatMemory.mayRefuse, Bool.and_eq_true, beq_iff_eq] at may
      exact may.2
    have other := FlatMemory.access_ne_refusal s.mappings s.flat nonempty write
    rw [kept, if_neg (Ne.symm other), if_pos ⟨may, rfl⟩]

/-- An exclusive write that ends without an error is refused exactly without the locks. -/
def RefusesUnlocked (s : MemorySystem) : Call × Option Response → Prop
  | (.access j a, some response) =>
      FlatMemory.mayRefuse a = true
      → response.status = .ok
      → (response = FlatMemory.refusal a ↔ s.holdsLock j a = false)
  | _ => True

/-- What the flat memory allows agrees with the locks. -/
theorem FlatOutcome.refusesUnlocked {j : Nat} {a : Access} {response : Response}
    {next : MemorySystem} (outcome : s.FlatOutcome j a response next) (nonempty : a.size ≠ 0)
    : s.RefusesUnlocked (.access j a, some response) := by
  intro may ok
  rcases outcome with ⟨served, locked⟩ | ⟨_, unlocked, refused, _⟩
  · have write : a.command = .write := by
      simp only [FlatMemory.mayRefuse, Bool.and_eq_true, beq_iff_eq] at may
      exact may.2
    have answer : response = (FlatMemory.access s.mappings s.flat a).1 := congrArg Prod.fst served
    have other := FlatMemory.access_ne_refusal s.mappings s.flat nonempty write
    simp [answer, other, locked may ok]
  · exact ⟨fun _ => unlocked, fun _ => refused⟩

/-- The invalidations of a reset are no error. -/
theorem WellFormed.invalidateAll (wf : s.WellFormed) {target : Nat}
    (regular : (s.memories target).Regular)
    : ∃ initiators,
        invalidateAll target (((s.memories target).socket.dmiCache.map (·.entries)).getD []) s
        = some { s with initiators } := by
  obtain ⟨limit, cached⟩ := regular.cache
  have ordered
      : (s.memories target).memory.dmi.start.toNat ≤ (s.memories target).memory.dmi.last.toNat := by
    rw [regular.start]
    exact Nat.zero_le _
  obtain ⟨initiators, invalidated⟩ := wf.invalidateDirectMemPtr target ordered
  rw [cached]
  simp only [Option.map_some, Option.getD_some, MemorySystem.invalidateAll, List.foldlM_cons,
    List.foldlM_nil, invalidated]
  exact ⟨initiators, rfl⟩

/-- A reset of a mapped memory fills its bytes of the flat memory, and no others. -/
theorem WellFormed.reset (wf : s.WellFormed) (separate : s.Separate) {m : Mapping}
    (mapped : m ∈ s.mappings)
    : ∃ next,
        s.reset m.target = some next
        ∧ (FlatMemory.calls s.mappings s.poisons).step s.flat (.reset m.target, none)
          = some next.flat := by
  have fits := wf.fits m mapped
  have regular := wf.regular m mapped
  obtain ⟨initiators, invalidated⟩ := wf.invalidateAll regular
  unfold MemorySystem.reset
  simp only [invalidated, Option.map_some]
  refine ⟨_, rfl, ?_⟩
  simp only [FlatMemory.calls]
  by_cases poisoned : s.poisons m.target > 0
  · rw [if_pos poisoned, if_pos (show (s.memories m.target).poison > 0 from poisoned)]
    congr 1
    funext addr
    have length
        : (s.memories m.target).memory.dmi.range.length.toNat
          = (s.memories m.target).memory.dmi.last.toNat + 1 := by
      have below := fits.below
      have start := regular.start
      unfold AddressRange.length TlmDmi.range
      simp only [start]
      bv_omega
    unfold FlatMemory.fill MemorySystem.flat
    simp only
    cases at_addr : FlatMemory.mappingAt s.mappings addr with
    | none => rfl
    | some other =>
        obtain ⟨otherMapped, lower, upper⟩ := FlatMemory.mem_of_mappingAt at_addr
        have within := (wf.fits other otherMapped).within
        simp only [Option.any_some, beq_iff_eq, length]
        by_cases same : other.target = m.target
        · rw [if_pos same, if_pos]
          · rfl
          · show _ ≤ s.hostOf other addr ∧ s.hostOf other addr < _
            unfold hostOf
            rw [same] at within ⊢
            omega
        · have apart := separate.disjoint other otherMapped m mapped (by
            intro equal
            exact same (congrArg Mapping.target equal))
          rw [if_neg same, if_neg]
          · rfl
          · show ¬ (_ ≤ s.hostOf other addr ∧ s.hostOf other addr < _)
            unfold hostOf
            omega
  · rw [if_neg poisoned, if_neg (show ¬ (s.memories m.target).poison > 0 from poisoned)]
    rfl

/-- Every access completes as its transaction does in the memory system without DMI. -/
theorem Invariant.perform_access (inv : s.Invariant) (separate : s.Separate) (j : Nat) {a : Access}
    (contiguous : Contiguous s.mappings a)
    : ∃ response pending next,
        s.perform (.access j a) = some (some response, next)
        ∧ s.withoutDmi.send j a = some (response, pending, next.withoutDmi)
        ∧ s.FlatOutcome j a response next := by
  have regular : (Call.access j a).Contiguous s.mappings := contiguous
  have same := inv.perform_withoutDmi regular
  have wf : s.withoutDmi.WellFormed :=
    ⟨inv.wellFormed.apart, inv.wellFormed.fits, inv.wellFormed.regular⟩
  have apart : s.withoutDmi.Separate :=
    ⟨separate.bounded, separate.disjoint, separate.writable⟩
  obtain ⟨response, pending, plain, sent, outcome⟩ := wf.send apart j contiguous
  simp only [MemorySystem.perform, withoutDmi_beginAccess, sent, Option.map_some] at same
  obtain ⟨⟨returned, next⟩, began, equal⟩ := Option.map_eq_some_iff.mp same
  obtain ⟨rfl, rfl⟩ := Prod.mk.inj equal
  exact ⟨response, pending, next, began, sent, outcome⟩

/-- Every call completes as the flat memory allows: with DMI it leaves what it leaves without. -/
theorem Invariant.perform_flat (inv : s.Invariant) (separate : s.Separate) {call : Call}
    (regular : call.Regular s.mappings)
    : ∃ response next,
        s.perform call = some (response, next)
        ∧ (FlatMemory.calls s.mappings s.poisons).step s.flat (call, response) = some next.flat
        ∧ s.RefusesUnlocked (call, response) := by
  cases call with
  | access j a =>
      obtain ⟨response, _, next, performed, _, outcome⟩ := inv.perform_access separate j regular
      exact ⟨some response, next, performed, outcome.step regular.nonempty,
        outcome.refusesUnlocked regular.nonempty⟩
  | requestDmi j tx =>
      obtain ⟨_, dmiCache, same⟩ := inv.requestDmi j tx
      refine ⟨none, s.requestDmi j tx, rfl, ?_, trivial⟩
      rw [same]
      rfl
  | reset target =>
      obtain ⟨m, mapped, rfl⟩ := regular
      obtain ⟨next, wasReset, step⟩ := inv.wellFormed.reset separate mapped
      refine ⟨none, next, ?_, step, trivial⟩
      simp only [MemorySystem.perform, wasReset, Option.map_some]

-----------------------------------------------------------------------------------------
-- Runs
-----------------------------------------------------------------------------------------

/-- A sequence of calls runs to its end, with the responses of the flat memory and with refusals by
the locks; by induction on the calls.
-/
theorem Invariant.run_flat (sequence : List Call) {s : MemorySystem} (inv : s.Invariant)
    (separate : s.Separate) (regular : ∀ call ∈ sequence, call.Regular s.mappings)
    : ∃ trace next,
        trace.map Prod.fst = sequence
        ∧ calls.run s trace = some next
        ∧ (FlatMemory.calls s.mappings s.poisons).run s.flat trace = some next.flat
        ∧ calls.Admits RefusesUnlocked s trace := by
  induction sequence generalizing s with
  | nil => exact ⟨[], s, rfl, rfl, rfl, trivial⟩
  | cons call rest ih =>
      obtain ⟨head, tail⟩ := List.forall_mem_cons.mp regular
      obtain ⟨response, middle, performed, step, locked⟩ := inv.perform_flat separate head
      obtain ⟨again, stable⟩ := inv.perform head.contiguous performed
      have poisons : middle.poisons = s.poisons := by
        funext target
        obtain ⟨exmon, same⟩ := stable.memories target
        rw [MemorySystem.poisons, same]
        rfl
      obtain ⟨trace, next, whole, ran, flat, others⟩ := ih again (separate.of_stable stable)
        (stable.mappings ▸ tail)
      have stepped : calls.step s (call, response) = some middle := calls_step.mpr performed
      refine ⟨(call, response) :: trace, next, ?_, ?_, ?_, locked, fun other same => ?_⟩
      · rw [List.map_cons, whole]
      · rw [Transition.System.run, stepped, Option.bind_some, ran]
      · rw [Transition.System.run, step, Option.bind_some, ← stable.mappings, ← poisons, flat]
      · obtain rfl := Option.some.inj (stepped.symm.trans same)
        exact others

/-- The calls of a run determine it. -/
theorem run_unique {first second : List (Call × Option Response)} {firstEnd secondEnd : MemorySystem}
    (same : first.map Prod.fst = second.map Prod.fst) (ran : calls.run s first = some firstEnd)
    (ranToo : calls.run s second = some secondEnd)
    : first = second := by
  induction first generalizing second s with
  | nil =>
      rw [List.map_nil, eq_comm, List.map_eq_nil_iff] at same
      exact same.symm
  | cons head rest ih =>
      cases second with
      | nil => cases same
      | cons other others =>
          obtain ⟨call, response⟩ := head
          obtain ⟨otherCall, otherResponse⟩ := other
          obtain ⟨sameCall, sameRest⟩ := List.cons.inj same
          obtain rfl : call = otherCall := sameCall
          obtain ⟨next, stepped, ran⟩ := Option.bind_eq_some_iff.mp ran
          obtain ⟨otherNext, steppedToo, ranToo⟩ := Option.bind_eq_some_iff.mp ranToo
          obtain ⟨rfl, rfl⟩ := Prod.mk.inj
            (Option.some.inj ((calls_step.mp stepped).symm.trans (calls_step.mp steppedToo)))
          rw [ih sameRest ran ranToo]

theorem defaultSystem_separate : defaultSystem.Separate :=
  defaultSystem_built.separate defaultMemoryMap_proper.1 defaultMemoryMap_proper.2
    ⟨by decide, by decide, by decide⟩

end MemorySystem

end VcmlPydrofoil
