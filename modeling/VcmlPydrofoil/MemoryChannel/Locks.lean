import Mathlib.Data.List.Nodup
import VcmlPydrofoil.Model.Moves

/-! Who holds `memtask_mutex` and who sleeps on `memtask_cv`, for any number of clients. -/

namespace VcmlPydrofoil

open Interaction (Tree)

variable {π β : Type} {vp : Platform π β} {s after : State π β} {label : Label}

/-- A client that holds `memtask_mutex` across steps. -/
def ClientPc.locksMemtask : ClientPc → Bool
  | .testMemtask _ | .sleepMemtask _ | .takeMemtask _ => true
  | _ => false

/-- A client that sleeps on `memtask_cv`. -/
def ClientPc.sleeps : ClientPc → Bool
  | .asleep _ => true
  | _ => false

/-- The mutex is held exactly while one client is between its lock and its release, and the
condition variable lists exactly the sleeping clients, each once.
-/
structure LockInvariant (s : State π β) : Prop where
  held : s.memtaskMutex = true ↔ ∃ c, (s.client c).locksMemtask = true
  exclusive
    : ∀ c d, (s.client c).locksMemtask = true → (s.client d).locksMemtask = true → c = d
  sleepers : ∀ c, c ∈ s.memtaskCv ↔ (s.client c).sleeps = true
  distinct : s.memtaskCv.Nodup

/-- A client that neither takes nor releases the mutex, nor falls asleep, nor wakes. -/
theorem LockInvariant.still (inv : LockInvariant s) {c : ClientId} {pc : ClientPc}
    (locks : pc.locksMemtask = (s.client c).locksMemtask)
    (sleeps : pc.sleeps = (s.client c).sleeps)
    (client : after.client = Function.update s.client c pc)
    (mutex : (after.memtaskMutex, after.memtaskCv) = (s.memtaskMutex, s.memtaskCv))
    : LockInvariant after := by
  simp only [Prod.mk.injEq] at mutex
  have locksSame (d : ClientId)
      : (after.client d).locksMemtask = (s.client d).locksMemtask := by
    rw [client]
    by_cases same : d = c
    · rw [same, Function.update_self, locks]
    · rw [Function.update_of_ne same]
  have sleepsSame (d : ClientId) : (after.client d).sleeps = (s.client d).sleeps := by
    rw [client]
    by_cases same : d = c
    · rw [same, Function.update_self, sleeps]
    · rw [Function.update_of_ne same]
  constructor
  · simpa only [mutex, locksSame] using inv.held
  · simpa only [locksSame] using inv.exclusive
  · simpa only [mutex, sleepsSame] using inv.sleepers
  · simpa only [mutex] using inv.distinct

/-- A move of the worker that wakes nobody leaves the mutex and the sleepers alone. -/
theorem LockInvariant.frame (inv : LockInvariant s) (client : after.client = s.client)
    (mutex : (after.memtaskMutex, after.memtaskCv) = (s.memtaskMutex, s.memtaskCv))
    : LockInvariant after := by
  simp only [Prod.mk.injEq] at mutex
  constructor
  · simpa only [mutex, client] using inv.held
  · simpa only [client] using inv.exclusive
  · simpa only [mutex, client] using inv.sleepers
  · simpa only [mutex] using inv.distinct

/-- Taking the free mutex makes its client the only holder. -/
theorem LockInvariant.lock (inv : LockInvariant s) {c : ClientId} {id : Nat}
    (pc : s.client c = .lockMemtask id) (free : s.memtaskMutex = false)
    : LockInvariant ({ s with memtaskMutex := true }.goto c (.testMemtask id)) := by
  have unheld (d : ClientId) : (s.client d).locksMemtask = false := by
    by_contra locks
    have := inv.held.mpr ⟨d, by simpa using locks⟩
    simp [free] at this
  have only (d : ClientId)
      (locks : (Function.update s.client c (.testMemtask id) d).locksMemtask = true)
      : d = c := by
    by_contra different
    simp [Function.update_of_ne different, unheld d] at locks
  constructor
  · exact ⟨fun _ => ⟨c, by simp [State.goto, ClientPc.locksMemtask]⟩, fun _ => rfl⟩
  · exact fun d e first second => (only d first).trans (only e second).symm
  · intro d
    by_cases same : d = c
    · subst d
      simp [State.goto, inv.sleepers, pc, ClientPc.sleeps]
    · simpa [State.goto, same] using inv.sleepers d
  · exact inv.distinct

/-- Only its holder releases the mutex, so nobody holds it afterwards. -/
theorem LockInvariant.released (inv : LockInvariant s) {c : ClientId} {pc : ClientPc}
    (holder : (s.client c).locksMemtask = true) (locks : pc.locksMemtask = false) (d : ClientId)
    : (Function.update s.client c pc d).locksMemtask = false := by
  by_cases same : d = c
  · rw [same, Function.update_self, locks]
  · rw [Function.update_of_ne same]
    by_contra other
    exact same (inv.exclusive d c (by simpa using other) holder)

/-- Releasing the mutex without sleeping. -/
theorem LockInvariant.unlock (inv : LockInvariant s) {c : ClientId} {pc : ClientPc}
    (holder : (s.client c).locksMemtask = true) (locks : pc.locksMemtask = false)
    (sleeps : pc.sleeps = false)
    (client : after.client = Function.update s.client c pc)
    (mutex : after.memtaskMutex = false) (cv : after.memtaskCv = s.memtaskCv)
    : LockInvariant after := by
  have unheld := inv.released holder locks
  constructor
  · simp [mutex, client, unheld]
  · intro d e first
    simp [client, unheld] at first
  · intro d
    rw [cv, inv.sleepers, client]
    by_cases same : d = c
    · subst d
      have awake : (s.client c).sleeps = false := by
        cases here : s.client c <;> simp_all [ClientPc.locksMemtask, ClientPc.sleeps]
      simp [sleeps, awake]
    · simp [same]
  · exact cv ▸ inv.distinct

/-- Falling asleep releases the mutex and joins the sleepers. -/
theorem LockInvariant.sleepMemtask (inv : LockInvariant s) {c : ClientId} {id : Nat}
    (pc : s.client c = .sleepMemtask id)
    : LockInvariant (s.sleepMemtask c id) := by
  have holder : (s.client c).locksMemtask = true := by rw [pc]; rfl
  have unheld (d : ClientId)
      : (Function.update s.client c (.asleep id) d).locksMemtask = false :=
    inv.released holder rfl d
  have awake : c ∉ s.memtaskCv := by simp [inv.sleepers, pc, ClientPc.sleeps]
  constructor
  · simp [State.sleepMemtask, unheld]
  · intro d e first
    simp [State.sleepMemtask, unheld] at first
  · intro d
    simp only [State.sleepMemtask, List.mem_append, List.mem_singleton, inv.sleepers]
    by_cases same : d = c
    · simp [same, ClientPc.sleeps]
    · simp [same]
  · simpa only [State.sleepMemtask, List.concat_eq_append] using inv.distinct.concat awake

/-- A woken client leaves the sleepers. -/
theorem LockInvariant.wakeClient (inv : LockInvariant s) {c : ClientId} {id : Nat}
    (pc : s.client c = .asleep id)
    : LockInvariant (s.wakeClient c) := by
  have woken : (s.wakeClient c).client = Function.update s.client c (.lockMemtask id) := by
    simp only [State.wakeClient, pc]
  have locks (d : ClientId)
      : ((s.wakeClient c).client d).locksMemtask = (s.client d).locksMemtask := by
    rw [woken]
    by_cases same : d = c
    · rw [same, Function.update_self, pc]
      rfl
    · rw [Function.update_of_ne same]
  have mutex : (s.wakeClient c).memtaskMutex = s.memtaskMutex := rfl
  constructor
  · simpa only [locks, mutex] using inv.held
  · simpa only [locks] using inv.exclusive
  · intro d
    rw [woken]
    simp only [State.wakeClient, inv.distinct.mem_erase_iff, inv.sleepers]
    by_cases same : d = c
    · simp [same, ClientPc.sleeps]
    · simp [same]
  · exact inv.distinct.erase c

/-- A notification wakes nobody, or one of the sleepers. -/
theorem LockInvariant.notified (inv : LockInvariant s) {wake : Nat}
    (notified : s.notifyMemtask wake = some after)
    : (s.memtaskCv = [] ∧ after = s)
      ∨ ∃ c id, s.client c = .asleep id ∧ after = s.wakeClient c := by
  unfold State.notifyMemtask at notified
  split at notified
  · next nobody => exact Or.inl ⟨by simpa using nobody, (Option.some.inj notified).symm⟩
  · obtain ⟨c, found, same⟩ := Option.map_eq_some_iff.mp notified
    have asleep := (inv.sleepers c).mp (List.mem_of_getElem? found)
    cases pc : s.client c <;> simp [pc, ClientPc.sleeps] at asleep
    exact Or.inr ⟨c, _, pc, same.symm⟩

/-- A notification keeps the invariant. -/
theorem LockInvariant.notify (inv : LockInvariant s) {wake : Nat}
    (notified : s.notifyMemtask wake = some after)
    : LockInvariant after := by
  rcases inv.notified notified with ⟨_, rfl⟩ | ⟨c, id, pc, rfl⟩
  · exact inv
  · exact inv.wakeClient pc

/-- Every move keeps the mutex and the sleepers in order, by cases on the move. -/
theorem LockInvariant.move (inv : LockInvariant s) (move : Move vp s label after)
    : LockInvariant after := by
  cases move with
  | call c op pc =>
      rcases call_cases s c op pc with ⟨_, same⟩ | ⟨_, _, _, same⟩ <;> rw [same]
      · exact inv.still (by rw [pc]; rfl) (by rw [pc]; rfl) rfl rfl
      · exact inv.still (by rw [pc]; cases op <;> rfl) (by rw [pc]; cases op <;> rfl) rfl rfl
  | pushTask c op pc =>
      exact inv.still (by rw [pc]; cases op <;> rfl) (by rw [pc]; cases op <;> rfl) rfl rfl
  | notifyTask c op id pc =>
      exact inv.still (by rw [pc]; cases op <;> rfl) (by rw [pc]; cases op <;> rfl) rfl rfl
  | finish c op id value pc =>
      obtain ⟨counts, returned, same⟩ := finish_eq s c op id value
      rw [same]
      exact inv.still (by rw [pc]; cases op <;> rfl) (by rw [pc]; cases op <;> rfl) rfl rfl
  | setSimStarted _ _ _ pc | leaveLoop _ _ _ pc | stayInLoop _ _ pc | testTrue _ _ pc
  | testFalse _ _ pc | access _ _ _ pc | answer _ _ _ _ pc | clearSimStarted _ pc | joined _ pc
  | busThrows _ _ _ pc =>
      exact inv.still (by rw [pc]; rfl) (by rw [pc]; rfl) rfl rfl
  | lockMemtask c id pc free => exact inv.lock pc free
  | sleepMemtask c id pc => exact inv.sleepMemtask pc
  | takeMemtask _ _ _ _ pc | continueLoop _ _ pc =>
      exact inv.unlock (by rw [pc]; rfl) rfl rfl rfl rfl rfl
  | spuriousClient c id pc => exact inv.wakeClient pc
  | notifyHandler _ _ _ _ _ notified | notifyMem _ _ _ _ _ _ _ notified =>
      exact (inv.notify notified).frame rfl rfl
  | _ => exact inv.frame rfl rfl

/-- Nobody holds the mutex or sleeps before the constructor. -/
theorem LockInvariant.initial (py : π) (bus : β) : LockInvariant (State.initial py bus) := by
  constructor <;> simp [State.initial, ClientPc.locksMemtask, ClientPc.sleeps]

end VcmlPydrofoil
