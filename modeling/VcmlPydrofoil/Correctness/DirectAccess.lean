import VcmlPydrofoil.Transport.SystemMemory

/-! Direct memory access is transparent. Whatever the initiators do, in whatever order, a memory
system with DMI caches gives the responses of the one where every access is a transaction on the
bus, and leaves the same memory, monitors and times.
-/

namespace VcmlPydrofoil

namespace MemorySystem

variable {s : MemorySystem}

/-- Another cache of an initiator is no difference without DMI. -/
theorem withoutDmi_setInitiator (s : MemorySystem) (j : Nat) (dmiCache : Option TlmDmiCache)
    : (s.setInitiator j { s.initiators j with dmiCache }).withoutDmi = s.withoutDmi := by
  unfold setInitiator withoutDmi
  simp only [MemorySystem.mk.injEq, and_true]
  funext i
  by_cases same : i = j
  · subst same
    rw [Function.update_self]
    rfl
  · rw [Function.update_of_ne same]

/-- The range of an access with consecutive bytes is no error. -/
theorem Contiguous.make_range {mappings : List Mapping} {a : Access}
    (contiguous : Contiguous mappings a)
    : AddressRange.make a.addr (a.addr + a.size.setWidth 64 - 1)
      = some (.ofAccess a.addr a.size) := by
  have ordered : ¬ (AddressRange.ofAccess a.addr a.size).last < a.addr := by
    rw [BitVec.lt_def]
    exact Nat.not_lt.mpr contiguous.ordered
  unfold AddressRange.make
  rw [if_neg]
  · rfl
  · rw [Bool.and_eq_true, decide_eq_true_eq]
    exact fun holds => ordered holds.1

/-- Without DMI every access is a transaction. -/
theorem withoutDmi_beginAccess (s : MemorySystem) (j : Nat) (a : Access)
    : s.withoutDmi.beginAccess j a = s.withoutDmi.send j a := by
  unfold beginAccess
  rw [show (s.withoutDmi.initiators j).allowDmi = false from rfl, Bool.and_false,
    if_neg (by simp)]

/-- An access whose bytes are consecutive gets the response of its transaction, and leaves what the
transaction leaves apart from the DMI caches.
-/
theorem Invariant.beginAccess_withoutDmi (inv : s.Invariant) {j : Nat} {a : Access}
    (contiguous : Contiguous s.mappings a)
    : (s.beginAccess j a).map (fun (response, _, next) => (response, next.withoutDmi))
      = (s.withoutDmi.beginAccess j a).map (fun (response, _, next) => (response, next)) := by
  have sends
      : ∀ s : MemorySystem,
          (s.send j a).map (fun (response, _, next) => (response, next.withoutDmi))
          = (s.withoutDmi.send j a).map (fun (response, _, next) => (response, next)) := by
    intro s
    rw [withoutDmi_send, Option.map_map]
    rfl
  rw [withoutDmi_beginAccess, ← sends]
  unfold beginAccess
  split
  · next direct =>
      have notIgnored : a.command ≠ .ignore := by
        simp only [Bool.and_eq_true, decide_eq_true_eq] at direct
        exact direct.1
      unfold accessDmi
      by_cases cached : (a.info.isNodmi || a.info.isExcl) = true
      · rw [if_pos cached]
      · rw [if_neg cached, contiguous.make_range]
        simp only [Bool.or_eq_true, not_or, Bool.not_eq_true] at cached
        simp only [Option.map_some]
        have hits := fun dmi => TlmDmiCache.mem_of_lookup
          ((s.initiators j).dmiCache.getD {}) dmi (.ofAccess a.addr a.size)
          (tlmCommandToAccess (if a.info.isDebug then .read else a.command))
        generalize ((s.initiators j).dmiCache.getD {}).lookup (.ofAccess a.addr a.size)
          (tlmCommandToAccess (if a.info.isDebug then .read else a.command)) = answer at hits ⊢
        obtain ⟨found, cache⟩ := answer
        cases found with
        | none =>
            simp only
            rw [sends, withoutDmi_setInitiator, ← sends]
        | some dmi =>
            obtain ⟨mem, includes, allowed⟩ := hits dmi rfl
            cases was : (s.initiators j).dmiCache with
            | none =>
                rw [was] at mem
                cases mem
            | some before =>
                rw [was, Option.getD_some] at mem
                obtain ⟨m, hit⟩ := inv.hit was mem includes contiguous
                obtain ⟨pending, sent⟩ :=
                  hit.send inv.wellFormed notIgnored allowed cached.2 contiguous.nonempty
                rw [sent]
                have same := withoutDmi_setInitiator
                  { s with host := hostAfter s.host a (dmi.getPtr a.addr) } j (some cache)
                simp only [copyDmi_eq _ notIgnored, Option.map_some, ← withoutDmi_advance]
                exact congrArg (fun system : MemorySystem =>
                  some (_, system.advance j (latencyOf dmi a))) same
  · rfl

/-- An access keeps the invariant. -/
theorem Invariant.beginAccess (inv : s.Invariant) {j : Nat} {a : Access}
    (contiguous : Contiguous s.mappings a) {response : Response} {pending : Option TlmPayload}
    {next : MemorySystem} (began : s.beginAccess j a = some (response, pending, next))
    : next.Invariant ∧ s.Stable next := by
  unfold MemorySystem.beginAccess at began
  split at began
  · next direct =>
      have notIgnored : a.command ≠ .ignore := by
        simp only [Bool.and_eq_true, decide_eq_true_eq] at direct
        exact direct.1
      unfold accessDmi at began
      by_cases cached : (a.info.isNodmi || a.info.isExcl) = true
      · rw [if_pos cached] at began
        exact inv.send contiguous began
      · rw [if_neg cached, contiguous.make_range] at began
        simp only [Option.map_some] at began
        have looked := inv.lookup j (.ofAccess a.addr a.size)
          (tlmCommandToAccess (if a.info.isDebug then .read else a.command))
        generalize ((s.initiators j).dmiCache.getD {}).lookup (.ofAccess a.addr a.size)
          (tlmCommandToAccess (if a.info.isDebug then .read else a.command)) = answer
          at began looked
        obtain ⟨found, cache⟩ := answer
        cases found with
        | none =>
            obtain ⟨kept, stable⟩ := looked.send contiguous began
            have first : s.Stable (s.setInitiator j { s.initiators j with dmiCache := some cache }) :=
              .of_same rfl rfl
            exact ⟨kept, first.trans stable⟩
        | some dmi =>
            simp only [copyDmi_eq _ notIgnored] at began
            obtain ⟨-, -, rfl⟩ := Prod.mk.inj (Option.some.inj began) |>.imp_right Prod.mk.inj
            exact ⟨(looked.host _).advance j (latencyOf dmi a), .of_same rfl rfl⟩
  · exact inv.send contiguous began

/-- The calls whose accesses have consecutive bytes, all in one mapping or in none. -/
def Call.Contiguous (mappings : List Mapping) : Call → Prop
  | .access _ a => MemorySystem.Contiguous mappings a
  | .requestDmi _ _ => True
  | .reset _ => True

instance (mappings : List Mapping) (call : Call) : Decidable (call.Contiguous mappings) :=
  match call with
  | .access _ a => inferInstanceAs (Decidable (MemorySystem.Contiguous mappings a))
  | .requestDmi _ _ => inferInstanceAs (Decidable True)
  | .reset _ => inferInstanceAs (Decidable True)

/-- The invalidations of a reset, by induction on the windows. -/
theorem withoutDmi_invalidateAll (target : Nat) (entries : List TlmDmi) (s : MemorySystem)
    : invalidateAll target entries s.withoutDmi
      = (invalidateAll target entries s).map withoutDmi := by
  induction entries generalizing s with
  | nil => rfl
  | cons dmi rest ih =>
      simp only [invalidateAll, List.foldlM_cons, withoutDmi_invalidateDirectMemPtr]
      cases s.invalidateDirectMemPtr target dmi.start dmi.last with
      | none => rfl
      | some next => exact ih next

/-- A reset does the same without DMI. -/
theorem withoutDmi_reset (s : MemorySystem) (target : Nat)
    : s.withoutDmi.reset target = (s.reset target).map withoutDmi := by
  unfold reset
  rw [show s.withoutDmi.memories target = s.memories target from rfl]
  simp only [withoutDmi_invalidateAll, Option.map_map]
  congr 1
  funext next
  simp only [Function.comp_apply]
  split <;> rfl

/-- A call gives the same response without DMI, and leaves the same apart from the DMI caches. -/
theorem Invariant.perform_withoutDmi (inv : s.Invariant) {call : Call}
    (contiguous : call.Contiguous s.mappings)
    : (s.perform call).map (fun (response, next) => (response, next.withoutDmi))
      = s.withoutDmi.perform call := by
  cases call with
  | access j a =>
      have same := inv.beginAccess_withoutDmi (j := j) contiguous
      have lifted := congrArg (Option.map (fun (response, next) => (some response, next))) same
      rw [Option.map_map, Option.map_map] at lifted
      simp only [perform, Option.map_map]
      exact lifted
  | requestDmi j tx =>
      obtain ⟨_, dmiCache, same⟩ := inv.requestDmi j tx
      have still : s.withoutDmi.requestDmi j tx = s.withoutDmi := by
        unfold MemorySystem.requestDmi
        rw [show (s.withoutDmi.initiators j).allowDmi = false from rfl, if_neg (by simp)]
      simp only [perform, Option.map_some, same, withoutDmi_setInitiator, still]
  | reset target =>
      simp only [perform, withoutDmi_reset, Option.map_map]
      rfl

/-- A call keeps the invariant, and the bus and the memories but for their locks. -/
theorem Invariant.perform (inv : s.Invariant) {call : Call}
    (contiguous : call.Contiguous s.mappings) {response : Option Response} {next : MemorySystem}
    (performed : s.perform call = some (response, next))
    : next.Invariant ∧ s.Stable next := by
  cases call with
  | access j a =>
      obtain ⟨⟨_, pending, reached⟩, began, same⟩ := Option.map_eq_some_iff.mp performed
      obtain ⟨-, rfl⟩ := Prod.mk.inj same
      exact inv.beginAccess contiguous began
  | requestDmi j tx =>
      obtain ⟨-, rfl⟩ := Prod.mk.inj (Option.some.inj performed)
      obtain ⟨kept, dmiCache, same⟩ := inv.requestDmi j tx
      exact ⟨kept, by rw [same]; exact .of_same rfl rfl⟩
  | reset target =>
      obtain ⟨reached, wasReset, same⟩ := Option.map_eq_some_iff.mp performed
      obtain ⟨-, rfl⟩ := Prod.mk.inj same
      exact inv.reset wasReset

-----------------------------------------------------------------------------------------
-- Runs
-----------------------------------------------------------------------------------------

/-- A well-formed memory system before its first access. -/
structure Initial (s : MemorySystem) : Prop where
  wellFormed : s.WellFormed
  windows : ∀ j, (s.initiators j).dmiCache = none
  portLocks : ∀ j, (s.ports j).exmon = []
  memoryLocks : ∀ target, (s.memories target).socket.exmon = []

/-- At first there are no windows and no locks. -/
theorem Initial.invariant (initial : s.Initial) : s.Invariant where
  wellFormed := initial.wellFormed
  windows := by
    intro j cache cached
    rw [initial.windows j] at cached
    cases cached
  portLocks := by
    intro j lock mem
    rw [initial.portLocks j] at mem
    cases mem
  memoryLocks := by
    intro target lock mem
    rw [initial.memoryLocks target] at mem
    cases mem

/-- The memory system of `system` before its first access. -/
theorem Built.initial {map : MemoryMap} {blocks : HostBlocks} {host : ByteMemory}
    (built : s.Built map blocks host) (ram : map.ram.Proper) (bram : map.bram.Proper)
    : s.Initial :=
  ⟨built.wellFormed ram bram, built.fresh.1, built.fresh.2.1, built.fresh.2.2⟩

/-- A step of a run is a call with its response. -/
theorem calls_step {next : MemorySystem} {call : Call} {response : Option Response}
    : calls.step s (call, response) = some next ↔ s.perform call = some (response, next) := by
  simp only [calls, Option.bind_eq_some_iff, Prod.exists]
  constructor
  · rintro ⟨returned, reached, performed, same⟩
    split at same
    · next equal =>
        rw [performed, equal, Option.some.inj same]
    · cases same
  · intro performed
    exact ⟨response, next, performed, if_pos rfl⟩

/-- The guard of the runs whose accesses have consecutive bytes in one mapping or in none. -/
def ContiguousCalls (mappings : List Mapping)
    : Transition.Guard MemorySystem (Call × Option Response) :=
  fun _ step => step.1.Contiguous mappings

/-- The invariant along a run, where the mappings are those at its start. -/
theorem Invariant.step {mappings : List Mapping} {next : MemorySystem}
    {label : Call × Option Response} (inv : s.Invariant ∧ s.mappings = mappings)
    (contiguous : ContiguousCalls mappings s label) (stepped : calls.step s label = some next)
    : next.Invariant ∧ next.mappings = mappings := by
  obtain ⟨kept, same⟩ := inv
  obtain ⟨call, response⟩ := label
  subst same
  obtain ⟨again, stable⟩ := kept.perform contiguous (calls_step.mp stepped)
  exact ⟨again, stable.mappings⟩

/-- A step of a run without DMI. -/
theorem Invariant.step_withoutDmi {mappings : List Mapping} {label : Call × Option Response}
    (inv : s.Invariant ∧ s.mappings = mappings) (contiguous : ContiguousCalls mappings s label)
    : (calls.step s label).map withoutDmi = calls.step s.withoutDmi label := by
  obtain ⟨kept, same⟩ := inv
  obtain ⟨call, response⟩ := label
  subst same
  have performed := kept.perform_withoutDmi contiguous
  simp only [calls]
  rw [← performed]
  cases s.perform call with
  | none => rfl
  | some outcome =>
      simp only [Option.bind_some, Option.map_some]
      split <;> rfl

/-- Direct memory access is transparent: from a fresh memory system, the calls of all initiators in
any order get the responses that they get without DMI, or fail where they fail without it, and
leave what is left without it apart from the DMI caches.
-/
theorem dmi_transparent (initial : s.Initial) {trace : List (Call × Option Response)}
    (contiguous : ∀ step ∈ trace, step.1.Contiguous s.mappings)
    : (calls.run s trace).map withoutDmi = calls.run s.withoutDmi trace := by
  apply Transition.System.run_map
    (fun _ _ _ inv admitted stepped => Invariant.step inv admitted stepped)
    (fun _ _ inv admitted => Invariant.step_withoutDmi inv admitted) ⟨initial.invariant, rfl⟩
  exact .of_forall fun step mem _ => contiguous step mem

/-- The blocks of the default memory map on some host. -/
def defaultBlocks : HostBlocks := { sram := 0x7f0000000000, bram := 0x7f0000100000, page := 12 }

/-- The memory system of `system` with the default memory map. -/
def defaultSystem : MemorySystem :=
  (ofMap defaultMemoryMap defaultBlocks (fun _ => 0)).get rfl

theorem defaultMemoryMap_proper : defaultMemoryMap.ram.Proper ∧ defaultMemoryMap.bram.Proper :=
  ⟨⟨by decide, by decide⟩, by decide, by decide⟩

theorem defaultSystem_built : defaultSystem.Built defaultMemoryMap defaultBlocks (fun _ => 0) :=
  built_of_map defaultMemoryMap_proper.1 defaultMemoryMap_proper.2 (Option.some_get _).symm

/-- The core stores a word, gets a window, reads the word through it and locks it. The store of the
loader breaks the lock, so the exclusive store of the core fails, and then the RAM is reset.
-/
def sampleCalls : List (Call × Option Response) :=
  let word := { command := .write, addr := 0x80000008, data := 42, size := 8 : Access }
  let load := { word with command := .read, data := 0 }
  let tx := { command := .read, address := 0x80000008, size := 8, data := 0 }
  [
    (.access 3 word, some { status := .ok, bytes := 8, data := 42 }),
    (.requestDmi 3 tx, none),
    (.access 3 load, some { status := .ok, bytes := 8, data := 42 }),
    (.access 3 { load with info := { isExcl := true } },
      some { status := .ok, bytes := 8, data := 42 }),
    (.access 1 { word with data := 7 }, some { status := .ok, bytes := 8, data := 7 }),
    (.access 3 { word with data := 43, info := { isExcl := true } },
      some { status := .ok, bytes := 0, data := 43 }),
    (.reset 0, none)
  ]

/-- The core with its window does what it does without one. -/
theorem dmi_transparent_sample
    : (calls.run defaultSystem sampleCalls).isSome = true
      ∧ (calls.run defaultSystem sampleCalls).map withoutDmi
        = calls.run defaultSystem.withoutDmi sampleCalls :=
  ⟨by decide +kernel,
    dmi_transparent
      (defaultSystem_built.initial defaultMemoryMap_proper.1 defaultMemoryMap_proper.2)
      (by decide +kernel)⟩

end MemorySystem

end VcmlPydrofoil
