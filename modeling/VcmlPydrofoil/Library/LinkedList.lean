import Mathlib.Data.List.Basic
import Mathlib.Data.List.Nodup
import Mathlib.Data.List.Range

/-! Singly linked lists in a heap whose nodes are allocated one after the other and never
freed. A pointer is the position of its node. A walk that reaches NULL visits every node once,
so its nodes form a finite list without a cycle.
-/

namespace LinkedList

variable {Node : Type} (next : Node → Option Nat)

/-- The pointers met on the walk from `start` to NULL. -/
inductive Chain (heap : List Node) : Option Nat → List Nat → Prop
  | null : Chain heap none []
  | node (pointer : Nat) (node : Node) {rest : List Nat} (found : heap[pointer]? = some node)
    (below : Chain heap (next node) rest)
    : Chain heap (some pointer) (pointer :: rest)

/-- Walk from `start` to the first node that satisfies the test, or to NULL. The outer `none` is
a walk that takes more than `fuel` steps or follows a dangling pointer.
-/
def find (test : Node → Bool) (heap : List Node) : Nat → Option Nat → Option (Option Nat)
  | 0, _ => none
  | _ + 1, none => some none
  | fuel + 1, some pointer =>
      (heap[pointer]?).bind fun node =>
        if test node then some (some pointer) else find test heap fuel (next node)

variable {next} {heap : List Node} {start : Option Nat} {pointers others : List Nat}

namespace Chain

/-- The walk is determined by the heap, by induction on it. -/
theorem unique (chain : Chain next heap start pointers) (other : Chain next heap start others)
    : pointers = others := by
  induction chain generalizing others with
  | null =>
      cases other
      rfl
  | node pointer node found _ ih =>
      cases other with
      | node _ node' found' below' =>
          obtain rfl : node = node' := Option.some.inj (found.symm.trans found')
          rw [ih below']

/-- Every pointer on the walk starts the rest of it, by induction on the walk. -/
theorem suffix (chain : Chain next heap start pointers) {pointer : Nat}
    (member : pointer ∈ pointers)
    : ∃ rest, pointer :: rest <:+ pointers ∧ Chain next heap (some pointer) (pointer :: rest) := by
  induction chain with
  | null => simp at member
  | node first node found below ih =>
      rcases List.mem_cons.mp member with rfl | later
      · exact ⟨_, List.suffix_refl _, .node _ node found below⟩
      · obtain ⟨rest, inside, walk⟩ := ih later
        exact ⟨rest, inside.trans (List.suffix_cons _ _), walk⟩

/-- A walk that ends visits no node twice: from a second visit it would not end. -/
theorem nodup (chain : Chain next heap start pointers) : pointers.Nodup := by
  induction chain with
  | null => exact List.nodup_nil
  | node pointer node found below ih =>
      refine List.nodup_cons.mpr ⟨fun again => ?_, ih⟩
      obtain ⟨rest, inside, walk⟩ := below.suffix again
      have same := walk.unique (.node pointer node found below)
      have shorter := inside.length_le
      rw [same, List.length_cons] at shorter
      omega

/-- Allocating nodes leaves the walk alone, by induction on it. -/
theorem append (chain : Chain next heap start pointers) (more : List Node)
    : Chain next (heap ++ more) start pointers := by
  induction chain with
  | null => exact .null
  | node pointer node found _ ih =>
      refine .node pointer node ?_ ih
      have inside := (List.getElem?_eq_some_iff.mp found).1
      rw [List.getElem?_append_left inside, found]

/-- A new node in front of the walk. -/
theorem push (chain : Chain next heap start pointers) (node : Node) (linked : next node = start)
    : Chain next (heap ++ [node]) (some heap.length) (heap.length :: pointers) := by
  refine .node heap.length node (by simp) ?_
  rw [linked]
  exact chain.append [node]

/-- Changing nodes without their links leaves the walk alone, by induction on it. -/
theorem modify (chain : Chain next heap start pointers) (place : Nat) (change : Node → Node)
    (linked : ∀ node, next (change node) = next node)
    : Chain next (heap.modify place change) start pointers := by
  induction chain with
  | null => exact .null
  | node pointer node found _ ih =>
      by_cases same : place = pointer
      · refine .node pointer (change node) ?_ ((linked node).symm ▸ ih)
        simp [same, found]
      · refine .node pointer node ?_ ih
        simp [same, found]

/-- With enough steps, the search ends at the first node of the walk that satisfies the test,
by induction on the walk.
-/
theorem find_eq (chain : Chain next heap start pointers) (test : Node → Bool) {fuel : Nat}
    (enough : pointers.length < fuel)
    : find next test heap fuel start
      = some (pointers.find? (fun pointer => (heap[pointer]?).any test)) := by
  induction chain generalizing fuel with
  | null =>
      obtain ⟨steps, rfl⟩ := Nat.exists_eq_add_of_lt enough
      rfl
  | @node pointer node after found below ih =>
      cases fuel with
      | zero => simp at enough
      | succ steps =>
          have shorter : after.length < steps := by simpa using enough
          have rest := ih shorter
          cases here : test node with
          | true => simp [find, found, here]
          | false => simp [find, found, here, rest]

end Chain

end LinkedList
