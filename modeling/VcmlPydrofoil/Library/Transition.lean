import Mathlib.Logic.Relation

/-! Labelled transition systems with an executable step and a guard on the labels.
A guard selects the runs a result is about; the step function stays the same for all of
them, so facts proved for a weak guard transfer to every stronger one.
-/

namespace Transition

/-- A deterministic step per label; `none` means that the label is not enabled. -/
structure System (State Label : Type) where
  step : State → Label → Option State

/-- A guard admits a label in a state. -/
abbrev Guard (State Label : Type) := State → Label → Prop

namespace System

variable {State Label : Type} (system : System State Label)

/-- One admitted step. -/
def Moves (guard : Guard State Label) (before after : State) : Prop :=
  ∃ label, guard before label ∧ system.step before label = some after

/-- Any number of admitted steps. -/
abbrev Reaches (guard : Guard State Label) : State → State → Prop :=
  Relation.ReflTransGen (system.Moves guard)

/-- Execute a list of labels. -/
def run : State → List Label → Option State
  | state, [] => some state
  | state, label :: rest => (system.step state label).bind (fun next => run next rest)

/-- Every label of an executed list is admitted where it is taken. -/
def Admits (guard : Guard State Label) : State → List Label → Prop
  | _, [] => True
  | state, label :: rest =>
      guard state label ∧ ∀ next, system.step state label = some next → Admits guard next rest

/-- Execute a list of labels as far as a check admits them. -/
def runChecked (check : State → Label → Bool) : State → List Label → Option State
  | state, [] => some state
  | state, label :: rest =>
      if check state label then
        (system.step state label).bind (fun next => runChecked check next rest)
      else
        none

variable {system}

/-- One labelled step is a move. -/
theorem Moves.of_step {guard : Guard State Label} {before after : State} {label : Label}
    (admitted : guard before label) (stepped : system.step before label = some after)
    : system.Moves guard before after :=
  ⟨label, admitted, stepped⟩

/-- A stronger guard admits fewer moves. -/
theorem Moves.mono {strong weak : Guard State Label}
    (weaker : ∀ state label, strong state label → weak state label) {before after : State}
    (moved : system.Moves strong before after)
    : system.Moves weak before after := by
  obtain ⟨label, admitted, stepped⟩ := moved
  exact ⟨label, weaker before label admitted, stepped⟩

/-- A stronger guard reaches fewer states. -/
theorem Reaches.mono {strong weak : Guard State Label}
    (weaker : ∀ state label, strong state label → weak state label) {before after : State}
    (reached : system.Reaches strong before after)
    : system.Reaches weak before after :=
  Relation.ReflTransGen.mono (fun _ _ => Moves.mono weaker) _ _ reached

/-- A predicate kept by every admitted move holds in every reached state. -/
theorem Reaches.invariant {guard : Guard State Label} {Invariant : State → Prop}
    (kept : ∀ before after, Invariant before → system.Moves guard before after → Invariant after)
    {start finish : State} (reached : system.Reaches guard start finish)
    (initially : Invariant start)
    : Invariant finish := by
  induction reached with
  | refl => exact initially
  | tail _ moved ih => exact kept _ _ ih moved

/-- An executed list of admitted labels reaches its final state, by induction on the list. -/
theorem run_reaches {guard : Guard State Label} {labels : List Label} {start finish : State}
    (ran : system.run start labels = some finish) (admitted : system.Admits guard start labels)
    : system.Reaches guard start finish := by
  induction labels generalizing start with
  | nil =>
      obtain rfl : start = finish := Option.some.inj ran
      exact .refl
  | cons label rest ih =>
      obtain ⟨next, stepped, rest⟩ := Option.bind_eq_some_iff.mp ran
      exact .head (.of_step admitted.1 stepped) (ih rest (admitted.2 next stepped))

/-- A run of one step. -/
theorem run_singleton (label : Label) (start : State)
    : system.run start [label] = system.step start label := by
  simp only [run, Option.bind_fun_some]

/-- A run in two parts, by induction on the first one. -/
theorem run_append (first second : List Label) (start : State)
    : system.run start (first ++ second)
      = (system.run start first).bind (fun middle => system.run middle second) := by
  induction first generalizing start with
  | nil => rfl
  | cons label rest ih =>
      simp only [List.cons_append, run, Option.bind_assoc]
      congr 1
      funext next
      exact ih next

/-- A checked run is a run that keeps what its checked steps keep, and its labels are admitted
when the check implies the guard, by induction on the labels.
-/
theorem runChecked_run {guard : Guard State Label} {check : State → Label → Bool}
    {Invariant : State → Prop}
    (sound : ∀ state label, Invariant state → check state label = true → guard state label)
    (kept
      : ∀ before label after,
          Invariant before
          → check before label = true
          → system.step before label = some after
          → Invariant after)
    {labels : List Label} {start finish : State} (initially : Invariant start)
    (ran : system.runChecked check start labels = some finish)
    : system.run start labels = some finish
      ∧ system.Admits guard start labels ∧ Invariant finish := by
  induction labels generalizing start with
  | nil =>
      obtain rfl : start = finish := Option.some.inj ran
      exact ⟨rfl, trivial, initially⟩
  | cons label rest ih =>
      unfold runChecked at ran
      split at ran
      · next checked =>
          obtain ⟨next, stepped, rest⟩ := Option.bind_eq_some_iff.mp ran
          obtain ⟨executed, admitted, holds⟩ := ih (kept start label next initially checked stepped) rest
          refine ⟨by simp only [run, stepped, Option.bind_some, executed], ?_, holds⟩
          refine ⟨sound start label initially checked, fun other same => ?_⟩
          obtain rfl := Option.some.inj (stepped.symm.trans same)
          exact admitted
      · contradiction

/-- A stronger guard admits fewer lists of labels. -/
theorem Admits.mono {strong weak : Guard State Label}
    (weaker : ∀ state label, strong state label → weak state label) {labels : List Label}
    {start : State} (admitted : system.Admits strong start labels)
    : system.Admits weak start labels := by
  induction labels generalizing start with
  | nil => trivial
  | cons label rest ih =>
      exact ⟨weaker start label admitted.1, fun next stepped => ih (admitted.2 next stepped)⟩

/-- Labels that are admitted in every state. -/
theorem Admits.of_forall {guard : Guard State Label} {labels : List Label} {start : State}
    (always : ∀ label ∈ labels, ∀ state, guard state label)
    : system.Admits guard start labels := by
  induction labels generalizing start with
  | nil => trivial
  | cons label rest ih =>
      obtain ⟨head, tail⟩ := List.forall_mem_cons.mp always
      exact ⟨head start, fun next _ => ih tail⟩

/-- What the steps of labels keep holds after a run of these labels. -/
theorem run_invariant (Invariant : State → Prop) {labels : List Label}
    (kept
      : ∀ before, ∀ label ∈ labels, ∀ after,
          Invariant before → system.step before label = some after → Invariant after)
    {start finish : State} (ran : system.run start labels = some finish)
    (initially : Invariant start)
    : Invariant finish := by
  have admitted : system.Admits (fun _ label => label ∈ labels) start labels :=
    Admits.of_forall fun label mem _ => mem
  apply (run_reaches ran admitted).invariant _ initially
  rintro before after holds ⟨label, mem, stepped⟩
  exact kept before label mem after holds stepped

/-- A map of the states that commutes with every admitted step commutes with every admitted run,
by induction on the labels.
-/
theorem run_map {Other : Type} {other : System Other Label} {guard : Guard State Label}
    {Invariant : State → Prop} {f : State → Other}
    (kept
      : ∀ before label after,
          Invariant before
          → guard before label
          → system.step before label = some after
          → Invariant after)
    (commutes
      : ∀ state label, Invariant state → guard state label
          → (system.step state label).map f = other.step (f state) label)
    {labels : List Label} {start : State} (initially : Invariant start)
    (admitted : system.Admits guard start labels)
    : (system.run start labels).map f = other.run (f start) labels := by
  induction labels generalizing start with
  | nil => rfl
  | cons label rest ih =>
      have step := commutes start label initially admitted.1
      cases stepped : system.step start label with
      | none =>
          rw [stepped] at step
          simp only [run, stepped, ← step]
          rfl
      | some next =>
          rw [stepped] at step
          simp only [run, stepped, ← step, Option.map_some, Option.bind_some]
          exact ih (kept start label next initially admitted.1 stepped) (admitted.2 next stepped)

/-- If every move from a state satisfying `Invariant` is matched by abstract moves, the
abstraction of a reached state is abstractly reachable.
-/
theorem Reaches.simulates {Abstract : Type} {guard : Guard State Label}
    {Invariant : State → Prop} {abstraction : State → Abstract}
    {AbstractMoves : Abstract → Abstract → Prop}
    (kept : ∀ before after, Invariant before → system.Moves guard before after → Invariant after)
    (matched
      : ∀ before after,
          Invariant before
          → system.Moves guard before after
          → Relation.ReflTransGen AbstractMoves (abstraction before) (abstraction after))
    {start finish : State} (reached : system.Reaches guard start finish)
    (initially : Invariant start)
    : Relation.ReflTransGen AbstractMoves (abstraction start) (abstraction finish) := by
  induction reached with
  | refl => exact .refl
  | tail earlier moved ih =>
      exact ih.trans (matched _ _ (Reaches.invariant kept earlier initially) moved)

end System

end Transition
