import Mathlib.Data.Set.Insert
import Mathlib.Data.Set.Lattice
import Mathlib.Data.List.Pairwise
import Mathlib.Data.List.Perm.Basic

/-! Lists of entries that each stand for a set. A new entry absorbs the entries it can be merged
with, which keeps what the list covers; a cache built this way can only forget.
-/

namespace MergingCache

section Absorb

variable {ε : Type} (mergeable : ε → ε → Bool) (merge : ε → ε → ε)

/-- Put an entry in front, merged with the entries of the list as long as one of them can be.
The fuel is the number of entries.
-/
def absorb : Nat → ε → List ε → List ε
  | 0, entry, entries => entry :: entries
  | fuel + 1, entry, entries =>
      match entries.find? (mergeable entry) with
      | none => entry :: entries
      | some other => absorb fuel (merge entry other) (entries.eraseP (mergeable entry))

variable {mergeable} {merge}

/-- A round in which no entry can be merged. -/
theorem absorb_of_none {entry : ε} {entries : List ε}
    (none : entries.find? (mergeable entry) = none) (fuel : Nat)
    : absorb mergeable merge fuel entry entries = entry :: entries := by
  cases fuel with
  | zero => rfl
  | succ fuel => rw [absorb, none]

/-- A round that merges an entry. -/
theorem absorb_of_some {entry other : ε} {entries : List ε}
    (found : entries.find? (mergeable entry) = some other) (fuel : Nat)
    : absorb mergeable merge (fuel + 1) entry entries
      = absorb mergeable merge fuel (merge entry other) (entries.eraseP (mergeable entry)) := by
  rw [absorb, found]

/-- The entry found is the one that is erased. -/
theorem perm_cons_eraseP {entries : List ε} {test : ε → Bool} {other : ε}
    (found : entries.find? test = some other)
    : entries.Perm (other :: entries.eraseP test) := by
  obtain ⟨holds, before, after, rfl, earlier⟩ := List.find?_eq_some_iff_append.mp found
  have fails : ∀ e ∈ before, ¬ test e = true := by
    intro e mem
    simpa using earlier e mem
  rw [List.eraseP_append_right _ fails, List.eraseP_cons_of_pos holds]
  exact List.perm_middle

/-- The list grows by one entry at most. -/
theorem length_absorb_le (fuel : Nat) {entry : ε} {entries : List ε}
    : (absorb mergeable merge fuel entry entries).length ≤ entries.length + 1 := by
  induction fuel generalizing entry entries with
  | zero => exact le_rfl
  | succ fuel ih =>
      cases found : entries.find? (mergeable entry) with
      | none => rw [absorb_of_none found, List.length_cons]
      | some other =>
          rw [absorb_of_some found]
          have shorter := (perm_cons_eraseP found).length_eq
          rw [List.length_cons] at shorter
          exact ih.trans (by omega)

/-- A property of single entries that merging keeps holds of the whole list, by induction on the
rounds.
-/
theorem absorb_keeps {valid : ε → Prop}
    (merges : ∀ {first second}, valid first → valid second → mergeable first second
      → valid (merge first second))
    (fuel : Nat) {entry : ε} {entries : List ε} (head : valid entry)
    (tail : ∀ e ∈ entries, valid e)
    : ∀ e ∈ absorb mergeable merge fuel entry entries, valid e := by
  induction fuel generalizing entry entries with
  | zero => exact List.forall_mem_cons.mpr ⟨head, tail⟩
  | succ fuel ih =>
      cases found : entries.find? (mergeable entry) with
      | none =>
          rw [absorb_of_none found]
          exact List.forall_mem_cons.mpr ⟨head, tail⟩
      | some other =>
          rw [absorb_of_some found]
          have mem := List.mem_of_find?_eq_some found
          apply ih (merges head (tail other mem) (List.find?_some found))
          intro e rest
          exact tail e (List.mem_of_mem_eraseP rest)

/-- With fuel for every entry no two entries of the result can be merged, if that was so before:
the last round has found none.
-/
theorem absorb_pairwise (fuel : Nat) {entry : ε} {entries : List ε}
    (enough : entries.length ≤ fuel)
    (apart : entries.Pairwise (fun first second => mergeable first second = false))
    : (absorb mergeable merge fuel entry entries).Pairwise
      (fun first second => mergeable first second = false) := by
  induction fuel generalizing entry entries with
  | zero =>
      obtain rfl := List.length_eq_zero_iff.mp (Nat.le_zero.mp enough)
      exact List.pairwise_singleton _ _
  | succ fuel ih =>
      cases found : entries.find? (mergeable entry) with
      | none =>
          rw [absorb_of_none found]
          refine List.pairwise_cons.mpr ⟨?_, apart⟩
          intro other mem
          simpa using List.find?_eq_none.mp found other mem
      | some other =>
          rw [absorb_of_some found]
          apply ih
          · have shorter := (perm_cons_eraseP found).length_eq
            rw [List.length_cons] at shorter
            omega
          · exact apart.sublist List.eraseP_sublist

end Absorb

section Cover

variable {ε α : Type} (den : ε → Set α)

/-- What the entries of a list stand for together. -/
def cover (entries : List ε) : Set α := {x | ∃ entry ∈ entries, x ∈ den entry}

variable {den}

@[simp] theorem cover_nil : cover den [] = ∅ := by
  ext x
  simp [cover]

@[simp] theorem cover_cons (entry : ε) (entries : List ε)
    : cover den (entry :: entries) = den entry ∪ cover den entries := by
  ext x
  simp [cover]

/-- The order of the entries does not matter. -/
theorem cover_perm {first second : List ε} (perm : first.Perm second)
    : cover den first = cover den second := by
  ext x
  exact exists_congr fun entry => and_congr_left fun _ => perm.mem_iff

/-- Fewer entries cover less. -/
theorem cover_mono {first second : List ε} (sub : first ⊆ second)
    : cover den first ⊆ cover den second := by
  rintro x ⟨entry, mem, inside⟩
  exact ⟨entry, sub mem, inside⟩

variable {mergeable : ε → ε → Bool} {merge : ε → ε → ε}

/-- Absorbing adds what the entry stands for and loses nothing, where a merged entry stands for
both of its parts; by induction on the rounds.
-/
theorem cover_absorb {valid : ε → Prop}
    (merges : ∀ {first second}, valid first → valid second → mergeable first second
      → valid (merge first second))
    (union : ∀ {first second}, valid first → valid second → mergeable first second
      → den (merge first second) = den first ∪ den second)
    (fuel : Nat) {entry : ε} {entries : List ε} (head : valid entry)
    (tail : ∀ e ∈ entries, valid e)
    : cover den (absorb mergeable merge fuel entry entries) = den entry ∪ cover den entries := by
  induction fuel generalizing entry entries with
  | zero => exact cover_cons entry entries
  | succ fuel ih =>
      cases found : entries.find? (mergeable entry) with
      | none =>
          rw [absorb_of_none found]
          exact cover_cons entry entries
      | some other =>
          have mem := List.mem_of_find?_eq_some found
          have able := List.find?_some found
          have rest : ∀ e ∈ entries.eraseP (mergeable entry), valid e := by
            intro e rest
            exact tail e (List.mem_of_mem_eraseP rest)
          rw [absorb_of_some found, ih (merges head (tail other mem) able) rest,
            union head (tail other mem) able, cover_perm (perm_cons_eraseP found), cover_cons,
            Set.union_assoc]

/-- A path through what a list covers stays in one entry, when entries that the path leaves and
enters could be merged, and no two of them can; by induction on the path.
-/
theorem cover_path {entries : List ε} {path : Nat → α} {length : Nat}
    (apart : entries.Pairwise (fun first second => mergeable first second = false))
    (touching
      : ∀ first ∈ entries,
          ∀ second ∈ entries,
            ∀ i < length,
              path i ∈ den first
              → path (i + 1) ∈ den second
              → mergeable first second = true ∧ mergeable second first = true)
    (covered : ∀ i ≤ length, path i ∈ cover den entries)
    : ∃ entry ∈ entries, ∀ i ≤ length, path i ∈ den entry := by
  have same {first second : ε} (one : first ∈ entries) (other : second ∈ entries)
      (able : mergeable first second = true ∧ mergeable second first = true)
      : first = second := by
    by_contra different
    let Apart (one other : ε) : Prop := ¬ (mergeable one other = true ∧ mergeable other one = true)
    have symmetric : Std.Symm Apart := ⟨fun _ _ apart able => apart able.symm⟩
    have all : entries.Pairwise Apart := by
      refine apart.imp fun not_able able => ?_
      exact Bool.false_ne_true (not_able.symm.trans able.1)
    exact all.forall one other different able
  induction length with
  | zero =>
      obtain ⟨entry, mem, inside⟩ := covered 0 (Nat.le_refl 0)
      refine ⟨entry, mem, fun i bound => ?_⟩
      rwa [Nat.le_zero.mp bound]
  | succ length ih =>
      obtain ⟨entry, mem, inside⟩ := ih
        (fun first one second other i bound => touching first one second other i (by omega))
        (fun i bound => covered i (by omega))
      obtain ⟨next, member, ends⟩ := covered (length + 1) (Nat.le_refl _)
      obtain rfl := same mem member
        (touching entry mem next member length (by omega) (inside length (Nat.le_refl _)) ends)
      refine ⟨entry, mem, fun i bound => ?_⟩
      rcases Nat.le_succ_iff.mp bound with before | rfl
      · exact inside i before
      · exact ends

end Cover

end MergingCache
