import VcmlPydrofoil.Library.Interaction

/-! Imperative programs over a state, which may raise an exception and may ask their
environment. A raised exception keeps the changes made so far. Two readings are given by rules
for each construct: what a program ensures whatever the environment replies, and what it does
in an environment that answers from a state of its own.
-/

namespace Interaction

/-- A program with result `α`; `none` is a raised exception. -/
def Program (Event : Type) (Reply : Event → Type) (σ α : Type) : Type :=
  σ → Tree Event Reply (Option α × σ)

namespace Program

variable {Event : Type} {Reply : Event → Type} {σ α β ω : Type}

/-- Return a value. -/
def ret (value : α) : Program Event Reply σ α := fun state => .ret (some value, state)

/-- Run the rest with the value, unless an exception is raised. -/
def andThen (first : Program Event Reply σ α) (rest : α → Program Event Reply σ β)
    : Program Event Reply σ β :=
  fun state =>
    (first state).bind fun
      | (some value, next) => rest value next
      | (none, next) => .ret (none, next)

instance : Monad (Program Event Reply σ) where
  pure := ret
  bind := andThen

/-- Raise an exception. -/
def raise : Program Event Reply σ α := fun state => .ret (none, state)

/-- The state. -/
def get : Program Event Reply σ σ := fun state => .ret (some state, state)

/-- Change the state. -/
def modify (f : σ → σ) : Program Event Reply σ Unit := fun state => .ret (some (), f state)

/-- Ask the environment. -/
def ask (event : Event) : Program Event Reply σ (Reply event) :=
  fun state => .ask event (fun reply => .ret (some reply, state))

/-- Catch an exception. -/
def attempt (program : Program Event Reply σ α) : Program Event Reply σ (Option α) :=
  fun state => (program state).map (fun (result, next) => (some result, next))

/-- Run a program any number of times. -/
def times (program : Program Event Reply σ Unit) : Nat → Program Event Reply σ Unit
  | 0 => pure ()
  | count + 1 => do
      program
      times program count

-----------------------------------------------------------------------------------------
-- Whatever the environment replies
-----------------------------------------------------------------------------------------

/-- From this state, every question of the program satisfies `asked`, and every end of it the
postcondition.
-/
def Ensures (program : Program Event Reply σ α) (state : σ) (asked : Event → Prop)
    (post : Option α → σ → Prop)
    : Prop :=
  (program state).Always asked (fun out => post out.1 out.2)

variable {state : σ} {asked : Event → Prop} {post : Option α → σ → Prop}

@[simp] theorem ensures_pure (value : α)
    : Ensures (pure value : Program Event Reply σ α) state asked post ↔ post (some value) state :=
  Iff.rfl

@[simp] theorem ensures_raise
    : Ensures (raise : Program Event Reply σ α) state asked post ↔ post none state := Iff.rfl

@[simp] theorem ensures_get {post : Option σ → σ → Prop}
    : Ensures (get : Program Event Reply σ σ) state asked post ↔ post (some state) state := Iff.rfl

@[simp] theorem ensures_modify {f : σ → σ} {post : Option Unit → σ → Prop}
    : Ensures (modify f : Program Event Reply σ Unit) state asked post ↔ post (some ()) (f state) :=
  Iff.rfl

@[simp] theorem ensures_ask {event : Event} {post : Option (Reply event) → σ → Prop}
    : Ensures (ask event : Program Event Reply σ (Reply event)) state asked post
      ↔ asked event ∧ ∀ reply, post (some reply) state := Iff.rfl

/-- A sequence ensures what its rest ensures from wherever its first part ends. -/
@[simp] theorem ensures_bind {first : Program Event Reply σ α}
    {rest : α → Program Event Reply σ β} {post : Option β → σ → Prop}
    : Ensures (first >>= rest) state asked post
      ↔ Ensures first state asked fun result next =>
          match result with
          | some value => Ensures (rest value) next asked post
          | none => post none next := by
  refine Tree.always_bind.trans (Iff.of_eq (congrArg (fun ended => (first state).Always asked ended) ?_))
  funext out
  obtain ⟨result, next⟩ := out
  cases result with
  | some value => rfl
  | none => rfl

/-- A program that ends with a fixed value ensures what it ensures without. -/
theorem ensures_returning {program : Program Event Reply σ Unit} {value : α} {kept : σ → Prop}
    : Ensures (program >>= fun _ => pure value) state asked (fun _ next => kept next)
      ↔ Ensures program state asked (fun _ next => kept next) := by
  rw [ensures_bind]
  refine Iff.of_eq (congrArg (Ensures program state asked) ?_)
  funext result next
  cases result with
  | some _ => rfl
  | none => rfl

@[simp] theorem ensures_attempt {program : Program Event Reply σ α}
    {post : Option (Option α) → σ → Prop}
    : Ensures (attempt program) state asked post
      ↔ Ensures program state asked (fun result next => post (some result) next) :=
  Tree.always_bind

/-- A weaker postcondition. -/
theorem Ensures.mono {program : Program Event Reply σ α} {weaker : Option α → σ → Prop}
    (ensures : Ensures program state asked post)
    (implies : ∀ result final, post result final → weaker result final)
    : Ensures program state asked weaker :=
  Tree.Always.mono ensures (fun _ fine => fine) (fun out => implies out.1 out.2)

/-- What a program keeps, its repetition keeps, by induction on the count. -/
theorem Ensures.times {program : Program Event Reply σ Unit} {Invariant : σ → Prop}
    (kept
      : ∀ state, Invariant state → Ensures program state asked (fun _ next => Invariant next))
    (count : Nat) (state : σ) (holds : Invariant state)
    : Ensures (times program count) state asked (fun _ next => Invariant next) := by
  induction count generalizing state with
  | zero => exact holds
  | succ count ih =>
      refine ensures_bind.mpr ((kept state holds).mono ?_)
      intro result next still
      cases result with
      | some value => exact ih next still
      | none => exact still

-----------------------------------------------------------------------------------------
-- In an environment
-----------------------------------------------------------------------------------------

/-- Run a program in an environment with a state of its own. -/
def runIn (answer : ω → (event : Event) → Reply event × ω) (program : Program Event Reply σ α)
    (state : σ) (world : ω)
    : (Option α × σ) × ω :=
  (program state).run answer world

variable (answer : ω → (event : Event) → Reply event × ω) (state : σ) (world : ω)

/-- A run ends with the postcondition. -/
theorem Ensures.runIn {program : Program Event Reply σ α} {state : σ} {asked : Event → Prop}
    {post : Option α → σ → Prop} (ensures : Ensures program state asked post)
    (answer : ω → (event : Event) → Reply event × ω) (world : ω)
    : post (program.runIn answer state world).1.1 (program.runIn answer state world).1.2 :=
  Tree.Always.run ensures answer world

@[simp] theorem runIn_pure (value : α)
    : (pure value : Program Event Reply σ α).runIn answer state world
      = ((some value, state), world) := rfl

@[simp] theorem runIn_raise
    : (raise : Program Event Reply σ α).runIn answer state world = ((none, state), world) := rfl

@[simp] theorem runIn_get
    : (get : Program Event Reply σ σ).runIn answer state world = ((some state, state), world) := rfl

@[simp] theorem runIn_modify (f : σ → σ)
    : (modify f : Program Event Reply σ Unit).runIn answer state world
      = ((some (), f state), world) := rfl

@[simp] theorem runIn_ask (event : Event)
    : (ask event : Program Event Reply σ (Reply event)).runIn answer state world
      = ((some (answer world event).1, state), (answer world event).2) := rfl

/-- A sequence runs its rest where its first part ends, unless an exception is raised. -/
@[simp] theorem runIn_bind (first : Program Event Reply σ α) (rest : α → Program Event Reply σ β)
    : (first >>= rest).runIn answer state world
      = match first.runIn answer state world with
        | ((some value, next), after) => (rest value).runIn answer next after
        | ((none, next), after) => ((none, next), after) := by
  show ((first state).bind _).run answer world = _
  rw [Tree.run_bind]
  unfold runIn
  rcases (first state).run answer world with ⟨⟨_ | value, next⟩, after⟩ <;> rfl

/-- A program that ends with a fixed value. -/
theorem runIn_returning (program : Program Event Reply σ Unit) (value : α)
    : (program >>= fun _ => pure value).runIn answer state world
      = (((program.runIn answer state world).1.1.map (fun _ => value),
          (program.runIn answer state world).1.2), (program.runIn answer state world).2) := by
  rw [runIn_bind]
  rcases program.runIn answer state world with ⟨⟨_ | _, next⟩, after⟩ <;> rfl

@[simp] theorem runIn_attempt (program : Program Event Reply σ α)
    : (attempt program).runIn answer state world
      = ((some (program.runIn answer state world).1.1, (program.runIn answer state world).1.2),
        (program.runIn answer state world).2) := by
  show ((program state).bind _).run answer world = _
  rw [Tree.run_bind]
  rfl

end Program

end Interaction
