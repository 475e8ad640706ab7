import VcmlPydrofoil.MemoryChannel.Exceptions

/-! While no bus access throws, every access that a callback posts is served once and then
answered once, in the order of the posts.
-/

namespace VcmlPydrofoil

open Interaction (Tree)

variable {π β : Type} {vp : Platform π β} {s after : State π β} {label : Label}

/-- The outcome of a bus access that its client has performed and not answered. -/
def ClientPc.performed : ClientPc → Option Bool
  | .answer _ _ success => some success
  | _ => none

/-- How far the access in flight is: not performed, performed, or answered. -/
inductive ServicePhase (s : State π β) : Prop
  | quiet (pending : s.worker.pending = none) (served : s.log.served = s.log.requested)
    (answered : s.log.answered = s.log.requested)
  | waiting (request : MemCallback) (id : Nat) (pending : s.worker.pending = some (request, id))
    (unset : s.answers id = none) (nobody : ∀ c, (s.client c).performed = none)
    (served : s.log.requested = s.log.served ++ [id]) (answered : s.log.answered = s.log.served)
  | performed (request : MemCallback) (id : Nat) (c : ClientId) (success : Bool)
    (pending : s.worker.pending = some (request, id))
    (mine : (s.client c).performed = some success)
    (served : s.log.served = s.log.requested) (answered : s.log.served = s.log.answered ++ [id])
  | answered (request : MemCallback) (id : Nat) (pending : s.worker.pending = some (request, id))
    (set : (s.answers id).isSome) (served : s.log.served = s.log.requested)
    (answered : s.log.answered = s.log.requested)

/-- Posted accesses are numbered, and the histories of services and answers follow them. -/
structure ServiceInvariant (s : State π β) : Prop where
  numbered : s.log.requested = List.range s.nextAccess
  phase : ServicePhase s

/-- A client that performed an access serves it. -/
theorem ClientPc.serving_of_performed {pc : ClientPc} {success : Bool}
    (performed : pc.performed = some success)
    : ∃ memtask, pc.serving = some memtask := by
  cases pc <;> simp [ClientPc.performed] at performed
  exact ⟨_, rfl⟩

/-- Each access is served at most once and answered at most once, after its service. -/
theorem ServicePhase.once (phase : ServicePhase s)
    : s.log.served <+: s.log.requested ∧ s.log.answered <+: s.log.served
      ∧ s.log.requested.length ≤ s.log.answered.length + 1 := by
  cases phase with
  | quiet _ served answered | answered _ _ _ _ served answered =>
      rw [served, answered]
      exact ⟨List.prefix_refl _, List.prefix_refl _, Nat.le_succ _⟩
  | waiting _ id _ _ _ served answered =>
      rw [served, answered]
      exact ⟨List.prefix_append _ _, List.prefix_refl _, by simp⟩
  | performed _ id _ _ _ _ served answered =>
      rw [← served, answered]
      exact ⟨List.prefix_refl _, List.prefix_append _ _, by simp⟩

/-- Without an access in flight, every posted access is served and answered. -/
theorem ServicePhase.complete (phase : ServicePhase s) (idle : s.worker.pending = none)
    : s.log.served = s.log.requested ∧ s.log.answered = s.log.requested := by
  cases phase with
  | quiet _ served answered => exact ⟨served, answered⟩
  | waiting _ _ pending | performed _ _ _ _ pending | answered _ _ pending =>
      simp [idle] at pending

/-- A move that neither posts, performs nor answers an access. -/
theorem ServiceInvariant.frame (inv : ServiceInvariant s)
    (worker : after.worker.pending = s.worker.pending)
    (performed : ∀ c, (after.client c).performed = (s.client c).performed)
    (answers : (after.answers, after.nextAccess) = (s.answers, s.nextAccess))
    (history
      : (after.log.requested, after.log.served, after.log.answered)
        = (s.log.requested, s.log.served, s.log.answered))
    : ServiceInvariant after := by
  simp only [Prod.mk.injEq] at answers history
  obtain ⟨answers, next⟩ := answers
  obtain ⟨requested, served, answered⟩ := history
  refine ⟨by rw [requested, next, inv.numbered], ?_⟩
  cases inv.phase with
  | quiet pending same also =>
      exact .quiet (worker.trans pending) (by rw [served, requested, same])
        (by rw [answered, requested, also])
  | waiting request id pending unset nobody same also =>
      exact .waiting request id (worker.trans pending) (by rw [answers, unset])
        (fun c => (performed c).trans (nobody c)) (by rw [served, requested, same])
        (by rw [answered, served, also])
  | performed request id c success pending mine same also =>
      exact .performed request id c success (worker.trans pending) ((performed c).trans mine)
        (by rw [served, requested, same]) (by rw [answered, served, also])
  | answered request id pending set same also =>
      exact .answered request id (worker.trans pending) (by rw [answers]; exact set)
        (by rw [served, requested, same]) (by rw [answered, requested, also])

/-- A client that moves without performing or answering an access. -/
theorem ServiceInvariant.client (inv : ServiceInvariant s) {c : ClientId} {pc : ClientPc}
    (performed : pc.performed = (s.client c).performed)
    (client : after.client = Function.update s.client c pc)
    (worker : after.worker.pending = s.worker.pending)
    (answers : (after.answers, after.nextAccess) = (s.answers, s.nextAccess))
    (history
      : (after.log.requested, after.log.served, after.log.answered)
        = (s.log.requested, s.log.served, s.log.answered))
    : ServiceInvariant after := by
  refine inv.frame worker (fun d => ?_) answers history
  rw [client]
  by_cases same : d = c
  · rw [same, Function.update_self, performed]
  · rw [Function.update_of_ne same]

/-- A bus access serves the access in flight. -/
theorem ServiceInvariant.access (inv : ServiceInvariant s) (access : AccessInvariant s)
    {c : ClientId} {id : Nat} {memtask : MemAccess} (pc : s.client c = .access id memtask)
    : ServiceInvariant (s.access vp c id memtask) := by
  obtain ⟨request, found, pending, rfl, _, others, unset⟩ :=
    access.phase.of_serving (show (s.client c).serving = some memtask by rw [pc]; rfl)
  refine ⟨inv.numbered, ?_⟩
  cases inv.phase with
  | quiet none => simp [pending] at none
  | waiting request' id' pending' _ _ served answered =>
      obtain ⟨rfl, rfl⟩ : request = request' ∧ found = id' := by
        simpa [pending] using pending'
      refine .performed request found c
        (serve vp.bus s.bus (request.toMemAccess found) s.destination).success
        pending (by simp [State.access, ClientPc.performed]) ?_ ?_
      · simp [State.access, served]
      · simp [State.access, answered]
  | performed _ _ d success _ mine =>
      obtain ⟨memtask, serving⟩ := ClientPc.serving_of_performed mine
      have same : d = c := by
        by_contra different
        simp [others d different] at serving
      simp [same, pc, ClientPc.performed] at mine
  | answered request' id' pending' set =>
      obtain ⟨rfl, rfl⟩ : request = request' ∧ found = id' := by
        simpa [pending] using pending'
      simp [unset] at set

/-- An answer ends the service of the access in flight. -/
theorem ServiceInvariant.answer (inv : ServiceInvariant s) (access : AccessInvariant s)
    {c : ClientId} {id : Nat} {memtask : MemAccess} {success : Bool}
    (pc : s.client c = .answer id memtask success)
    : ServiceInvariant (s.answer c id memtask success) := by
  obtain ⟨request, found, pending, rfl, _, _, unset⟩ :=
    access.phase.of_serving (show (s.client c).serving = some memtask by rw [pc]; rfl)
  refine ⟨inv.numbered, ?_⟩
  cases inv.phase with
  | quiet none => simp [pending] at none
  | waiting _ _ _ _ nobody => simpa [pc, ClientPc.performed] using nobody c
  | performed request' id' _ _ pending' _ served answered =>
      obtain ⟨rfl, rfl⟩ : request = request' ∧ found = id' := by
        simpa [pending] using pending'
      exact .answered request found pending (by simp [State.answer]) served
        (by simp [State.answer, ← served, answered])
  | answered request' id' pending' set =>
      obtain ⟨rfl, rfl⟩ : request = request' ∧ found = id' := by
        simpa [pending] using pending'
      simp [unset] at set

/-- A posted access waits for its service. -/
theorem ServiceInvariant.pushMemtask (inv : ServiceInvariant s) (access : AccessInvariant s)
    {task : PythonTask} {request : MemCallback} {next : request.Reply → Script π}
    (pc : s.worker = .post task request next)
    : ServiceInvariant (s.pushMemtask task request next) := by
  have idle : s.worker.pending = none := by rw [pc]; rfl
  obtain ⟨served, answered⟩ := inv.phase.complete idle
  refine ⟨by simp [State.pushMemtask, inv.numbered, List.range_succ], ?_⟩
  refine .waiting request s.nextAccess rfl (access.fresh _ (Nat.le_refl _)) (fun c => ?_) ?_ ?_
  · have nobody := (access.phase.of_idle idle).2 c
    show (s.client c).performed = none
    cases pc : s.client c <;> first | rfl | simp [pc, ClientPc.serving] at nobody
  · simp [State.pushMemtask, served]
  · simp [State.pushMemtask, served, answered]

/-- A callback that has its answer leaves no access in flight. -/
theorem ServiceInvariant.leave (inv : ServiceInvariant s) (access : AccessInvariant s)
    {request : MemCallback} {id : Nat} (pending : s.worker.pending = some (request, id))
    (set : (s.answers id).isSome) (idle : after.worker.pending = none)
    (next : after.nextAccess = s.nextAccess)
    (history
      : (after.log.requested, after.log.served, after.log.answered)
        = (s.log.requested, s.log.served, s.log.answered))
    : ServiceInvariant after := by
  simp only [Prod.mk.injEq] at history
  obtain ⟨requested, served, answered⟩ := history
  refine ⟨by rw [requested, next, inv.numbered], ?_⟩
  cases inv.phase with
  | quiet none => simp [pending] at none
  | waiting request' id' pending' unset =>
      obtain ⟨rfl, rfl⟩ : request = request' ∧ id = id' := by simpa [pending] using pending'
      simp [unset] at set
  | performed _ _ c _ _ mine =>
      obtain ⟨memtask, serving⟩ := ClientPc.serving_of_performed mine
      have nobody := (access.phase.of_answered pending set).2 c
      simp [nobody] at serving
  | answered _ _ _ _ same also =>
      exact .quiet idle (by rw [served, requested, same]) (by rw [answered, requested, also])

/-- Every move without an exception keeps the histories in step, by cases on the move. -/
theorem ServiceInvariant.move (inv : ServiceInvariant s) (access : AccessInvariant s)
    (move : Move vp s label after) (completes : ∀ c, label ≠ .busThrows c)
    : ServiceInvariant after := by
  cases move with
  | call c op pc =>
      rcases call_cases s c op pc with ⟨_, same⟩ | ⟨_, _, _, same⟩ <;> rw [same]
      · exact inv.client (by rw [pc]; rfl) rfl rfl rfl rfl
      · exact inv.client (by rw [pc]; cases op <;> rfl) rfl rfl rfl rfl
  | pushTask c op pc => exact inv.client (by rw [pc]; cases op <;> rfl) rfl rfl rfl rfl
  | notifyTask c op id pc =>
      refine inv.client (by rw [pc]; cases op <;> rfl) rfl ?_ rfl rfl
      simp only [State.notifyTask]
      cases s.worker <;> rfl
  | finish c op id value pc =>
      obtain ⟨counts, returned, same⟩ := finish_eq s c op id value
      rw [same]
      exact inv.client (by rw [pc]; cases op <;> rfl) rfl rfl rfl rfl
  | access c id memtask pc => exact inv.access access pc
  | answer c id memtask success pc => exact inv.answer access pc
  | busThrows c => exact absurd rfl (completes c)
  | setSimStarted _ _ _ pc | leaveLoop _ _ _ pc | stayInLoop _ _ pc | lockMemtask _ _ pc
  | testTrue _ _ pc | testFalse _ _ pc | sleepMemtask _ _ pc | takeMemtask _ _ _ _ pc
  | continueLoop _ _ pc | clearSimStarted _ pc | joined _ pc =>
      exact inv.client (by rw [pc]; rfl) rfl rfl rfl rfl
  | spuriousClient c id pc => exact inv.client (by simp only [pc]; rfl) rfl rfl rfl rfl
  | pushMemtask _ task request next pc => exact inv.pushMemtask access pc
  | leaveCallback _ _ _ _ _ _ pc answered | brokenPromise _ _ _ _ _ pc answered =>
      exact inv.leave access (by rw [pc]; rfl) (by simp [answered]) rfl rfl rfl
  | notifyHandler _ _ _ pc _ notified | notifyMem _ _ _ _ _ pc _ notified =>
      have performed := notifyMemtask_map ClientPc.performed (fun _ => rfl) notified
      obtain ⟨cv, client, rfl, _⟩ := notifyMemtask_frame notified
      exact inv.frame (by rw [pc]; rfl) performed rfl rfl
  | spuriousWorker pc | lock _ pc | workerTestTrue _ pc | workerTestFalse _ pc | sleep _ pc
  | takeTask _ _ _ pc | exit _ pc | dispatch _ _ pc | handled _ _ pc | filterCallback _ _ _ _ pc
  | dropCallback _ _ _ _ pc | beginCallback _ _ _ _ pc | enter _ _ _ _ pc | leave _ _ _ _ _ pc
  | storeCpu _ _ _ _ pc | storeCycles _ _ _ _ pc | setValue _ _ _ _ pc
  | badVariantAccess _ _ _ pc =>
      exact inv.frame (by rw [pc]; rfl) (fun _ => rfl) rfl rfl

/-- No access is posted before the constructor. -/
theorem ServiceInvariant.initial (py : π) (bus : β) : ServiceInvariant (State.initial py bus) where
  numbered := rfl
  phase := .quiet rfl rfl rfl

end VcmlPydrofoil
