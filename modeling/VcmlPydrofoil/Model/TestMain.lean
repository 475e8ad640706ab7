import VcmlPydrofoil.Library.LinkedList
import VcmlPydrofoil.Model.Core
import VcmlPydrofoil.Model.Requests

/-! The plugin's test program, as in `testmain.c`. Its memory is a linked list of blocks that are
created on the first write to them.
-/

namespace VcmlPydrofoil

namespace TestMain

/-- The global `BLOCK_MASK`. -/
def blockMask : BitVec 64 := 0xFFFFFF

/-- `struct block` with the array behind its `mem` pointer. -/
structure Block where
  blockId : BitVec 64
  mem : Fin (2 ^ 24) → BitVec 64
  next : Option Nat

/-- `struct mem`, and the blocks allocated so far. A pointer is the position of its block. -/
structure Mem where
  heap : List Block
  firstBlock : Option Nat

/-- `mem.first_block = NULL`. -/
def Mem.empty : Mem := { heap := [], firstBlock := none }

/-- `address & ~BLOCK_MASK`. -/
def mask (address : BitVec 64) : BitVec 64 := address &&& ~~~blockMask

/-- `address & BLOCK_MASK` is inside the `BLOCK_MASK + 1` cells of a block. -/
theorem offset_lt (address : BitVec 64) : (address &&& blockMask).toNat < 2 ^ 24 := by
  have below : (address &&& blockMask).toNat ≤ blockMask.toNat := by
    rw [BitVec.toNat_and]
    exact Nat.and_le_right
  have : blockMask.toNat = 0xFFFFFF := rfl
  omega

/-- `address & BLOCK_MASK`. -/
def offset (address : BitVec 64) : Fin (2 ^ 24) := ⟨(address &&& blockMask).toNat, offset_lt address⟩

/-- `current->mem[offset] = value`. -/
def Block.set (block : Block) (offset : Fin (2 ^ 24)) (value : BitVec 64) : Block :=
  { block with mem := Function.update block.mem offset value }

namespace Mem

/-- The loop of both functions: the first block with this id, or NULL. The loop is cut off after
`fuel` tests; the outer `none` is a loop that has not ended by then.
-/
def find (fuel : Nat) (mem : Mem) (mask : BitVec 64) : Option (Option Nat) :=
  LinkedList.find Block.next (fun block => block.blockId == mask) mem.heap fuel mem.firstBlock

/-- `write_mem`: the status and the memory. -/
def writeMem (fuel : Nat) (mem : Mem) (address : BitVec 64) (value : BitVec 64)
    : Option (BitVec 32 × Mem) :=
  (mem.find fuel (mask address)).map fun
    | some current =>
        (0, { mem with heap := mem.heap.modify current (fun block => block.set (offset address) value) })
    | none =>
        let newBlock : Block := { blockId := mask address, mem := fun _ => 0, next := mem.firstBlock }
        (0,
          {
            heap := mem.heap ++ [newBlock.set (offset address) value]
            firstBlock := some mem.heap.length
          })

/-- `read_mem`: the status, and the word that it stores behind `destination`. -/
def readMem (fuel : Nat) (mem : Mem) (address : BitVec 64) : Option (BitVec 32 × BitVec 64) :=
  (mem.find fuel (mask address)).bind fun
    | some current => (mem.heap[current]?).map (fun block => (0, block.mem (offset address)))
    | none => some (0, 0)

/-- A call of one of the two functions. -/
def callback (fuel : Nat) (mem : Mem) : MemCallback → Option (CallbackReturn × Mem)
  | .readMem address size destination =>
      (mem.readMem fuel address).map fun (status, word) =>
        ({ callback := .readMem address size destination, status, word }, mem)
  | .writeMem address size value =>
      (mem.writeMem fuel address value).map fun (status, mem) =>
        ({ callback := .writeMem address size value, status, word := 0 }, mem)

/-- Calls in a row. -/
def run (fuel : Nat) : List MemCallback → Mem → Option (List CallbackReturn × Mem)
  | [], mem => some ([], mem)
  | request :: rest, mem =>
      (mem.callback fuel request).bind fun (reply, next) =>
        (run fuel rest next).map (fun (replies, final) => (reply :: replies, final))

end Mem

-----------------------------------------------------------------------------------------
-- The program
-----------------------------------------------------------------------------------------

/-- What C sees of a call of `read_mem` or `write_mem`. -/
def replyOf (returned : CallbackReturn) : (call : CCallback) → call.Reply
  | .read .. => (returned.status, returned.word)
  | .write .. => returned.status

/-- The two functions on the store of `main`. Their loop makes one test for each block and sees NULL
after the last one; a loop that does not is `none`, and so is everything after it.
-/
def functions : Environment (Option Mem) := fun mem call =>
  match mem.bind (fun mem => mem.callback (mem.heap.length + 1) call.toMemCallback) with
  | some (returned, next) => (replyOf returned call, some next)
  | none => (replyOf { callback := call.toMemCallback, status := 0, word := 0 } call, none)

/-- A line that `main` prints. -/
inductive Output where
  | usage
  | failedToAllocate
  | completed (cycles : BitVec 64)
  | reset
  | runningQuietly
  | resetPc (pc : BitVec 64)
  | settingPcFailed
  | currentPc (pc : BitVec 64)
  | failedToFree
  | freedSuccessfully
  deriving DecidableEq

/-- Code that calls the plugin and prints lines. -/
abbrev Main (α : Type) := Interaction.Program Request (fun _ => ApiResult) (List Output) α

/-- `printf`. -/
def print (line : Output) : Main Unit := Interaction.Program.modify (fun lines => lines ++ [line])

/-- A call of the plugin. -/
def call (request : Request) : Main ApiResult := Interaction.Program.ask request

/-- `&mem`. -/
def memPointer : Pointer := 3

/-- `main` after the allocation. -/
def mainWith (cpu : Handle) (steps : BitVec 32) : Main (BitVec 32) := do
  let _ ← call (.entry (some cpu) (.setRamReadWriteCallback readMemPointer writeMemPointer memPointer))
  let _ ← call (.entry (some cpu) (.simulate (steps.signExtend 64)))
  let cycles ← call (.cpuCycles (some cpu))
  print (.completed cycles.uint64)
  print .reset
  let _ ← call (.entry (some cpu) .reset)
  print .runningQuietly
  let _ ← call (.entry (some cpu) (.setVerbosity 0))
  let pc ← call (.cpuPc (some cpu))
  print (.resetPc pc.uint64)
  let res ← call (.entry (some cpu) (.setPc 4096))
  if res.int ≠ 0 then
    print .settingPcFailed
    pure (-1)
  else
    let _ ← call (.entry (some cpu) (.simulate (steps.signExtend 64)))
    let cycles ← call (.cpuCycles (some cpu))
    print (.completed cycles.uint64)
    let pc ← call (.cpuPc (some cpu))
    print (.currentPc pc.uint64)
    let freed ← call (.freeCpu (some cpu))
    if freed.int ≠ 0 then
      print .failedToFree
      pure (-1)
    else
      print .freedSuccessfully
      pure 0

/-- `main`, where `binary` is `argv[1]` and `steps` what `atoi` makes of `argv[2]`. -/
def main (argc : Nat) (binary : String) (steps : BitVec 32) : Main (BitVec 32) := do
  if argc < 3 then
    print .usage
    pure (-1)
  else
    let allocated ← call (.allocateCpu (some "rv64") (some binary))
    match allocated.cpu? with
    | none =>
        print .failedToAllocate
        pure (-1)
    | some cpu => mainWith cpu steps

/-- Run `main` with functions that have a store of their own: its exit code, what it has printed,
and the process at its end.
-/
def runMain {χ ω : Type} (ext : Pydrofoil χ) (answer : Environment ω) (env : ω) (argc : Nat)
    (binary : String) (steps : BitVec 32)
    : (Option (BitVec 32) × List Output) × Process χ ω :=
  (main argc binary steps).runIn (fun process => process.serve ext answer) [] { env }

end TestMain

end VcmlPydrofoil
