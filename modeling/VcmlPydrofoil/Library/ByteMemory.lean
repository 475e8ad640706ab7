import Mathlib.Logic.Function.Basic
import Mathlib.Tactic.Ring

/-! Byte-addressed memory with little-endian numbers of any width. A store is read back at its
own address and leaves every disjoint range alone.
-/

/-- A byte at every address. -/
abbrev ByteMemory := Nat → BitVec 8

namespace ByteMemory

/-- The number in `width` bytes from `address` on. -/
def load (memory : ByteMemory) (address : Nat) : Nat → Nat
  | 0 => 0
  | width + 1 => (memory address).toNat + 256 * load memory (address + 1) width

/-- Replace `width` bytes from `address` on by the low bytes of a number. -/
def store (memory : ByteMemory) (address : Nat) : Nat → Nat → ByteMemory
  | 0, _ => memory
  | width + 1, value =>
      Function.update (store memory (address + 1) width (value / 256)) address
        (BitVec.ofNat 8 value)

/-- A store leaves the bytes outside its range alone, by induction on the width. -/
theorem store_outside (memory : ByteMemory) {address width other : Nat} (value : Nat)
    (outside : other < address ∨ address + width ≤ other)
    : store memory address width value other = memory other := by
  induction width generalizing address value with
  | zero => rfl
  | succ width ih =>
      have different : other ≠ address := by omega
      rw [store, Function.update_of_ne different]
      apply ih
      omega

/-- A load sees only the bytes in its range, by induction on the width. -/
theorem load_congr {first second : ByteMemory} {address width : Nat}
    (same : ∀ byte, address ≤ byte → byte < address + width → first byte = second byte)
    : load first address width = load second address width := by
  induction width generalizing address with
  | zero => rfl
  | succ width ih =>
      have head := same address (by omega) (by omega)
      have tail : load first (address + 1) width = load second (address + 1) width :=
        ih fun byte lower upper => same byte (by omega) (by omega)
      rw [load, load, head, tail]

/-- A store replaces the bytes of its range, by induction on the width. -/
theorem store_apply (memory : ByteMemory) (address width value byte : Nat)
    : store memory address width value byte
      = if address ≤ byte ∧ byte < address + width then
          BitVec.ofNat 8 (value / 256 ^ (byte - address))
        else memory byte := by
  induction width generalizing address value with
  | zero =>
      rw [if_neg (by omega)]
      rfl
  | succ width ih =>
      rw [store]
      by_cases first : byte = address
      · subst first
        rw [Function.update_self, if_pos (by omega), Nat.sub_self, pow_zero, Nat.div_one]
      · rw [Function.update_of_ne first, ih]
        by_cases inside : address + 1 ≤ byte ∧ byte < address + 1 + width
        · have shift : byte - address = byte - (address + 1) + 1 := by omega
          rw [if_pos inside, if_pos (by omega), Nat.div_div_eq_div_mul, shift, pow_succ']
        · rw [if_neg inside, if_neg (by omega)]

/-- A load sees only the bytes of its range in their order, by induction on the width. -/
theorem load_translate {first second : ByteMemory} {address other width : Nat}
    (same : ∀ i, i < width → first (address + i) = second (other + i))
    : load first address width = load second other width := by
  induction width generalizing address other with
  | zero => rfl
  | succ width ih =>
      have head : first address = second other := same 0 (Nat.succ_pos width)
      have tail : load first (address + 1) width = load second (other + 1) width := by
        apply ih
        intro i bound
        rw [Nat.add_assoc, Nat.add_comm 1 i, Nat.add_assoc, Nat.add_comm 1 i]
        exact same (i + 1) (by omega)
      rw [load, load, head, tail]

/-- A load from a range disjoint from a store sees the memory before the store. -/
theorem load_store_disjoint (memory : ByteMemory) {address width other count : Nat} (value : Nat)
    (disjoint : other + count ≤ address ∨ address + width ≤ other)
    : load (store memory address width value) other count = load memory other count := by
  apply load_congr
  intro byte lower upper
  apply store_outside
  omega

/-- A load sees what was stored, as far as it fits the width; by induction on the width. -/
theorem load_store (memory : ByteMemory) (address width value : Nat)
    : load (store memory address width value) address width = value % 256 ^ width := by
  induction width generalizing address value with
  | zero => simp [load, Nat.mod_one]
  | succ width ih =>
      have tail
          : load (store memory address (width + 1) value) (address + 1) width
            = load (store memory (address + 1) width (value / 256)) (address + 1) width := by
        apply load_congr
        intro byte lower _
        have different : byte ≠ address := by omega
        rw [store, Function.update_of_ne different]
      have head : (store memory address (width + 1) value) address = BitVec.ofNat 8 value := by
        rw [store, Function.update_self]
      rw [load, head, tail, ih, BitVec.toNat_ofNat, pow_succ' 256 width, Nat.mod_mul]

/-- Zero bytes are the number zero, by induction on the width. -/
theorem load_zero (address width : Nat) : load (fun _ => 0) address width = 0 := by
  induction width generalizing address with
  | zero => rfl
  | succ width ih =>
      rw [load, ih]
      rfl

/-- The doubleword at an address. -/
def loadWord (memory : ByteMemory) (address : Nat) : BitVec 64 :=
  BitVec.ofNat 64 (load memory address 8)

/-- Replace the doubleword at an address. -/
def storeWord (memory : ByteMemory) (address : Nat) (value : BitVec 64) : ByteMemory :=
  store memory address 8 value.toNat

/-- A stored doubleword is loaded back. -/
@[simp] theorem loadWord_storeWord (memory : ByteMemory) (address : Nat) (value : BitVec 64)
    : loadWord (storeWord memory address value) address = value := by
  have fits : value.toNat < 256 ^ 8 := value.isLt
  rw [loadWord, storeWord, load_store, Nat.mod_eq_of_lt fits, BitVec.ofNat_toNat, BitVec.setWidth_eq]

/-- A doubleword that does not overlap the stored one is unchanged. -/
theorem loadWord_storeWord_disjoint (memory : ByteMemory) {address other : Nat}
    (value : BitVec 64) (disjoint : other + 8 ≤ address ∨ address + 8 ≤ other)
    : loadWord (storeWord memory address value) other = loadWord memory other := by
  rw [loadWord, storeWord, load_store_disjoint memory _ disjoint]
  rfl

/-- Two aligned doublewords are the same or do not overlap. -/
theorem aligned_disjoint {first second : Nat} (different : first ≠ second)
    : 8 * first + 8 ≤ 8 * second ∨ 8 * second + 8 ≤ 8 * first := by
  omega

end ByteMemory
