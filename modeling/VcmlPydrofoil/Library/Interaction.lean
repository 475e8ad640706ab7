/-! Interaction trees: a computation that asks its environment for replies.
A tree is well founded, so it asks finitely many questions on every path, but it may branch
on every reply. Trees are interpreted one question at a time, by whoever answers them.
-/

namespace Interaction

/-- A computation with result `α` that asks events of type `Event`. -/
inductive Tree (Event : Type) (Reply : Event → Type) (α : Type) : Type
  | ret (value : α)
  | ask (event : Event) (next : Reply event → Tree Event Reply α)

namespace Tree

variable {Event : Type} {Reply : Event → Type} {α β γ : Type}

/-- Continue with another computation after the result. -/
def bind : Tree Event Reply α → (α → Tree Event Reply β) → Tree Event Reply β
  | .ret value, rest => rest value
  | .ask event next, rest => .ask event (fun reply => (next reply).bind rest)

/-- Apply a function to the result. -/
def map (f : α → β) (tree : Tree Event Reply α) : Tree Event Reply β :=
  tree.bind (fun value => .ret (f value))

/-- Ask in another event type, reading each reply back. -/
def embed {Outer : Type} {OuterReply : Outer → Type} (inject : Event → Outer)
    (pull : ∀ event, OuterReply (inject event) → Reply event)
    : Tree Event Reply α → Tree Outer OuterReply α
  | .ret value => .ret value
  | .ask event next =>
      .ask (inject event) (fun reply => (next (pull event reply)).embed inject pull)

/-- Answer every question from a state that the answers may change. -/
def run {σ : Type} (answer : σ → (event : Event) → Reply event × σ)
    : Tree Event Reply α → σ → α × σ
  | .ret value, state => (value, state)
  | .ask event next, state =>
      (next (answer state event).1).run answer (answer state event).2

/-- Whatever the replies, every question satisfies `asked` and the result satisfies `ended`. -/
def Always (asked : Event → Prop) (ended : α → Prop) : Tree Event Reply α → Prop
  | .ret value => ended value
  | .ask event next => asked event ∧ ∀ reply, (next reply).Always asked ended

/-- Every question changes a state, and is asked only where `asked` allows it. -/
def AlwaysFrom {σ : Type} (effect : Event → σ → σ) (asked : Event → σ → Prop)
    : Tree Event Reply α → σ → Prop
  | .ret _, _ => True
  | .ask event next, state =>
      asked event state ∧ ∀ reply, (next reply).AlwaysFrom effect asked (effect event state)

@[simp] theorem bind_ret (value : α) (rest : α → Tree Event Reply β)
    : (Tree.ret value).bind rest = rest value := rfl

@[simp] theorem bind_ask (event : Event) (next : Reply event → Tree Event Reply α)
    (rest : α → Tree Event Reply β)
    : (Tree.ask event next).bind rest = .ask event (fun reply => (next reply).bind rest) := rfl

@[simp] theorem run_ret {σ : Type} (answer : σ → (event : Event) → Reply event × σ)
    (value : α) (state : σ)
    : (Tree.ret value : Tree Event Reply α).run answer state = (value, state) := rfl

@[simp] theorem run_ask {σ : Type} (answer : σ → (event : Event) → Reply event × σ)
    (event : Event) (next : Reply event → Tree Event Reply α) (state : σ)
    : (Tree.ask event next).run answer state
      = (next (answer state event).1).run answer (answer state event).2 := rfl

/-- Running a composed tree runs its parts in order, by induction on the first part. -/
theorem run_bind {σ : Type} (answer : σ → (event : Event) → Reply event × σ)
    (tree : Tree Event Reply α) (rest : α → Tree Event Reply β) (state : σ)
    : (tree.bind rest).run answer state
      = (rest (tree.run answer state).1).run answer (tree.run answer state).2 := by
  induction tree generalizing state with
  | ret value => rfl
  | ask event next ih => simp only [bind_ask, run_ask, ih]

/-- An embedded tree runs as the tree does with the answers read back, by induction. -/
theorem run_embed {σ : Type} {Outer : Type} {OuterReply : Outer → Type}
    (inject : Event → Outer) (pull : ∀ event, OuterReply (inject event) → Reply event)
    (answer : σ → (event : Outer) → OuterReply event × σ) (tree : Tree Event Reply α) (state : σ)
    : (tree.embed inject pull).run answer state
      = tree.run
          (fun state event =>
            (pull event (answer state (inject event)).1, (answer state (inject event)).2))
          state := by
  induction tree generalizing state with
  | ret value => rfl
  | ask event next ih => exact ih _ _

/-- What every answer keeps, a run keeps, by induction on the tree. -/
theorem run_keeps {σ : Type} {answer : σ → (event : Event) → Reply event × σ}
    (Kept : σ → Prop) (keeps : ∀ state event, Kept state → Kept (answer state event).2)
    (tree : Tree Event Reply α) (state : σ) (kept : Kept state)
    : Kept (tree.run answer state).2 := by
  induction tree generalizing state with
  | ret value => exact kept
  | ask event next ih => exact ih _ _ (keeps state event kept)

variable {asked : Event → Prop} {ended : α → Prop}

@[simp] theorem always_ret {value : α}
    : (Tree.ret value : Tree Event Reply α).Always asked ended ↔ ended value := Iff.rfl

@[simp] theorem always_ask {event : Event} {next : Reply event → Tree Event Reply α}
    : (Tree.ask event next).Always asked ended
      ↔ asked event ∧ ∀ reply, (next reply).Always asked ended := Iff.rfl

/-- A composed tree is a tree at whose ends the second part takes over, by induction. -/
theorem always_bind {tree : Tree Event Reply α} {rest : α → Tree Event Reply β} {ended : β → Prop}
    : (tree.bind rest).Always asked ended
      ↔ tree.Always asked (fun value => (rest value).Always asked ended) := by
  induction tree with
  | ret value => exact Iff.rfl
  | ask event next ih =>
      rw [bind_ask, always_ask, always_ask]
      exact and_congr Iff.rfl (forall_congr' ih)

/-- Weaker conditions, by induction on the tree. -/
theorem Always.mono {tree : Tree Event Reply α} {weakerAsked : Event → Prop}
    {weakerEnded : α → Prop} (always : tree.Always asked ended)
    (askedImplies : ∀ event, asked event → weakerAsked event)
    (endedImplies : ∀ value, ended value → weakerEnded value)
    : tree.Always weakerAsked weakerEnded := by
  induction tree with
  | ret value => exact endedImplies value always
  | ask event next ih =>
      exact ⟨askedImplies event always.1, fun reply => ih reply (always.2 reply)⟩

/-- What holds of every question and every result holds of a tree, by induction. -/
theorem Always.of_forall (allAsked : ∀ event, asked event) (allEnded : ∀ value, ended value)
    (tree : Tree Event Reply α)
    : tree.Always asked ended := by
  induction tree with
  | ret value => exact allEnded value
  | ask event next ih => exact ⟨allAsked event, ih⟩

/-- An embedded tree asks embedded questions, by induction. -/
theorem Always.embed {Outer : Type} {OuterReply : Outer → Type} {inject : Event → Outer}
    {pull : ∀ event, OuterReply (inject event) → Reply event} {asked : Outer → Prop}
    {tree : Tree Event Reply α} (always : tree.Always (fun event => asked (inject event)) ended)
    : (tree.embed inject pull).Always asked ended := by
  induction tree with
  | ret value => exact always
  | ask event next ih => exact ⟨always.1, fun reply => ih _ (always.2 _)⟩

/-- A run ends where the tree does, by induction. -/
theorem Always.run {σ : Type} {tree : Tree Event Reply α} (always : tree.Always asked ended)
    (answer : σ → (event : Event) → Reply event × σ) (state : σ)
    : ended (tree.run answer state).1 := by
  induction tree generalizing state with
  | ret value => exact always
  | ask event next ih => exact ih _ (always.2 _) _

/-- What the answers to its questions keep, a run keeps, by induction on the tree. -/
theorem Always.run_keeps {σ : Type} {answer : σ → (event : Event) → Reply event × σ}
    (Kept : σ → Prop)
    (keeps : ∀ state event, Kept state → asked event → Kept (answer state event).2)
    {tree : Tree Event Reply α} (always : tree.Always asked ended) {state : σ} (kept : Kept state)
    : Kept (tree.run answer state).2 := by
  induction tree generalizing state with
  | ret value => exact kept
  | ask event next ih => exact ih _ (always.2 _) (keeps state event kept always.1)

/-- Two ways to answer the questions of a tree that give the same replies and keep their states
related run it to the same result; by induction on the tree.
-/
theorem Always.run_related {σ τ : Type} {first : σ → (event : Event) → Reply event × σ}
    {second : τ → (event : Event) → Reply event × τ} {related : σ → τ → Prop}
    (same
      : ∀ state other event, related state other → asked event
          → (first state event).1 = (second other event).1
            ∧ related (first state event).2 (second other event).2)
    {tree : Tree Event Reply α} (always : tree.Always asked ended) {state : σ} {other : τ}
    (initially : related state other)
    : (tree.run first state).1 = (tree.run second other).1
      ∧ related (tree.run first state).2 (tree.run second other).2 := by
  induction tree generalizing state other with
  | ret value => exact ⟨rfl, initially⟩
  | ask event next ih =>
      obtain ⟨reply, after⟩ := same state other event initially always.1
      rw [run_ask, run_ask, reply]
      exact ih _ (always.2 _) after

section Effects

variable {σ : Type} {effect : Event → σ → σ} {asked : Event → σ → Prop}

/-- A first part that leaves the state alone, by induction on it. -/
theorem alwaysFrom_bind {tree : Tree Event Reply α} {rest : α → Tree Event Reply β} {state : σ}
    (first
      : tree.Always (fun event => effect event state = state ∧ asked event state)
          (fun value => (rest value).AlwaysFrom effect asked state))
    : (tree.bind rest).AlwaysFrom effect asked state := by
  induction tree with
  | ret value => exact first
  | ask event next ih =>
      obtain ⟨⟨still, allowed⟩, below⟩ := first
      refine ⟨allowed, fun reply => ?_⟩
      rw [still]
      exact ih reply (below reply)

end Effects

end Tree

end Interaction
