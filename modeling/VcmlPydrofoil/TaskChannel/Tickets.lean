import VcmlPydrofoil.Model.Moves

/-! The ticket that a client holds is that of the task its own operation posted. -/

namespace VcmlPydrofoil

open Interaction (Tree)

variable {π β : Type} {vp : Platform π β} {s after : State π β} {label : Label}

/-- The function and the ticket of the task that a client still has to collect. -/
def ClientPc.current : ClientPc → Option (Funct × Nat)
  | .notifyTask op id | .getResult op id => some (op.pyFunct, id)
  | .setSimStarted _ id | .testDone id | .lockMemtask id | .testMemtask id | .sleepMemtask id
  | .asleep id | .takeMemtask id | .access id _ | .answer id _ _ => some (.simulate, id)
  | .idle | .push _ | .clearSimStarted | .joinWorker => none

/-- Every client that holds a ticket posted the task of that ticket, for its own operation. -/
def TicketInvariant (s : State π β) : Prop :=
  ∀ c funct id,
    (s.client c).current = some (funct, id)
    → ∃ task, (c, task) ∈ s.log.posted ∧ task.pyFunct = funct ∧ task.result = id

/-- A client that moves keeps its ticket or gives it up. -/
theorem TicketInvariant.update (inv : TicketInvariant s) {c : ClientId} {pc : ClientPc}
    (current : pc.current = none ∨ pc.current = (s.client c).current)
    (client : after.client = Function.update s.client c pc)
    (posted : after.log.posted = s.log.posted)
    : TicketInvariant after := by
  intro other funct id holds
  rw [posted]
  rw [client] at holds
  by_cases same : other = c
  · subst other
    rw [Function.update_self] at holds
    rcases current with none | kept
    · simp [none] at holds
    · exact inv c funct id (kept ▸ holds)
  · rw [Function.update_of_ne same] at holds
    exact inv other funct id holds

/-- A move that leaves the clients alone, or only wakes some, keeps every ticket. -/
theorem TicketInvariant.frame (inv : TicketInvariant s)
    (posted : after.log.posted = s.log.posted)
    (clients
      : ∀ c,
          after.client c = s.client c
          ∨ ∃ id, s.client c = .asleep id ∧ after.client c = .lockMemtask id)
    : TicketInvariant after := by
  intro c funct id holds
  rw [posted]
  refine inv c funct id ?_
  rcases clients c with same | ⟨ticket, asleep, woken⟩
  · exact same ▸ holds
  · rw [woken] at holds
    rw [asleep]
    exact holds

/-- A push gives the client the ticket of its task. -/
theorem TicketInvariant.pushTask (inv : TicketInvariant s) (c : ClientId) (op : Operation)
    : TicketInvariant (s.pushTask c op) := by
  intro other funct id holds
  simp only [State.pushTask] at holds ⊢
  by_cases same : other = c
  · subst other
    refine ⟨op.task s.nextTask, by simp, ?_⟩
    cases op <;> simp [ClientPc.current] at holds <;> exact holds
  · rw [Function.update_of_ne same] at holds
    obtain ⟨task, posted, same⟩ := inv other funct id holds
    exact ⟨task, List.mem_append_left _ posted, same⟩

/-- Every move keeps the tickets with their operations, by cases on the move. -/
theorem TicketInvariant.move (inv : TicketInvariant s) (move : Move vp s label after)
    : TicketInvariant after := by
  cases move with
  | call c op pc =>
      obtain ⟨pc', started, _, posted, _, client⟩ := call_started s op pc
      refine inv.update (Or.inl ?_) client posted
      rcases started with ⟨_, rfl⟩ | ⟨_, rfl⟩
      · rfl
      · cases op <;> rfl
  | pushTask c op => exact inv.pushTask c op
  | notifyTask c op id pc =>
      refine inv.update (Or.inr ?_) rfl rfl
      rw [pc]
      cases op <;> rfl
  | finish c op id value pc =>
      obtain ⟨counts, returned, same⟩ := finish_eq s c op id value
      rw [same]
      exact inv.update (Or.inl (by cases op <;> rfl)) rfl rfl
  | setSimStarted _ _ _ pc | stayInLoop _ _ pc | lockMemtask _ _ pc | testTrue _ _ pc
  | testFalse _ _ pc | sleepMemtask _ _ pc | takeMemtask _ _ _ _ pc | continueLoop _ _ pc
  | access _ _ _ pc | answer _ _ _ _ pc =>
      exact inv.update (Or.inr (by rw [pc]; rfl)) rfl rfl
  | leaveLoop | clearSimStarted | joined | busThrows =>
      exact inv.update (Or.inl rfl) rfl rfl
  | spuriousClient c id pc =>
      exact inv.update (Or.inr (by simp only [pc]; rfl)) rfl rfl
  | notifyHandler _ _ _ _ _ notified | notifyMem _ _ _ _ _ _ _ notified =>
      obtain ⟨cv, client, rfl, same⟩ := notifyMemtask_frame notified
      exact inv.frame rfl same
  | _ => exact inv.frame rfl (fun _ => Or.inl rfl)

/-- Nobody holds a ticket before the constructor. -/
theorem TicketInvariant.initial (py : π) (bus : β) : TicketInvariant (State.initial py bus) := by
  intro c funct id holds
  simp [State.initial, ClientPc.current] at holds

end VcmlPydrofoil
