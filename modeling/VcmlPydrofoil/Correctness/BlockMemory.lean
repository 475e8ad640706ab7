import VcmlPydrofoil.Library.ByteMemory
import VcmlPydrofoil.Model.MemoryCallbacks
import VcmlPydrofoil.Model.TestMain

/-! The linked blocks of the test program are a plain memory: every address has one cell, in the
one block with its id, and no block is ever lost or shadowed.
-/

namespace VcmlPydrofoil

namespace TestMain

open LinkedList (Chain)

/-- An address is its block id and its offset. -/
theorem mask_or_offset (address : BitVec 64) : mask address ||| (address &&& blockMask) = address := by
  unfold mask
  ext i inside
  simp only [BitVec.getElem_or, BitVec.getElem_and, BitVec.getElem_not]
  cases address[i] <;> cases blockMask[i] <;> rfl

/-- Splitting an address is injective. -/
theorem split_injective {first second : BitVec 64} (masks : mask first = mask second)
    (offsets : offset first = offset second)
    : first = second := by
  have low : first &&& blockMask = second &&& blockMask := by
    apply BitVec.eq_of_toNat_eq
    exact Fin.mk.inj_iff.mp offsets
  rw [← mask_or_offset first, masks, low, mask_or_offset]

/-- A block id has its low bits clear. -/
theorem mask_low (address : BitVec 64) : mask address &&& blockMask = 0#64 := by
  unfold mask
  ext i inside
  simp only [BitVec.getElem_and, BitVec.getElem_not, BitVec.getElem_zero]
  cases address[i] <;> cases blockMask[i] <;> rfl

-----------------------------------------------------------------------------------------
-- The representation
-----------------------------------------------------------------------------------------

/-- The blocks form one finite list without a cycle that holds every block ever allocated, and
the memory is what their cells contain, and zero elsewhere.
-/
structure Represents (mem : Mem) (contents : BitVec 64 → BitVec 64) : Prop where
  chain
    : ∃ pointers,
        Chain Block.next mem.heap mem.firstBlock pointers
        ∧ pointers.Perm (List.range mem.heap.length)
  distinct : (mem.heap.map Block.blockId).Nodup
  aligned : ∀ block ∈ mem.heap, block.blockId &&& blockMask = 0#64
  cells
    : ∀ block ∈ mem.heap,
        ∀ address, mask address = block.blockId → block.mem (offset address) = contents address
  absent
    : ∀ address, (∀ block ∈ mem.heap, block.blockId ≠ mask address) → contents address = 0

variable {mem : Mem} {contents : BitVec 64 → BitVec 64} {fuel : Nat}

/-- A store without blocks represents zeros. -/
theorem Represents.empty : Represents Mem.empty (fun _ => 0) where
  chain := ⟨[], .null, List.Perm.refl _⟩
  distinct := List.nodup_nil
  aligned := by simp [Mem.empty]
  cells := by simp [Mem.empty]
  absent := fun _ _ => rfl

/-- With a step for every block, the search ends: at the block with this id, or with none. -/
theorem Represents.find (rep : Represents mem contents) (enough : mem.heap.length < fuel)
    (id : BitVec 64)
    : (∃ current block,
        mem.find fuel id = some (some current)
        ∧ mem.heap[current]? = some block ∧ block.blockId = id)
      ∨ (mem.find fuel id = some none ∧ ∀ block ∈ mem.heap, block.blockId ≠ id) := by
  obtain ⟨pointers, chain, all⟩ := rep.chain
  have short : pointers.length < fuel := by
    rw [all.length_eq, List.length_range]
    exact enough
  have ends := chain.find_eq (fun block => block.blockId == id) short
  cases found : pointers.find? (fun pointer => (mem.heap[pointer]?).any (fun block => block.blockId == id)) with
  | some current =>
      left
      have hit := List.find?_some found
      cases here : mem.heap[current]? with
      | none => simp [here] at hit
      | some block =>
          simp only [here, Option.any_some, beq_iff_eq] at hit
          exact ⟨current, block, by rw [Mem.find, ends, found], here, hit⟩
  | none =>
      right
      refine ⟨by rw [Mem.find, ends, found], fun block member same => ?_⟩
      obtain ⟨current, inside, here⟩ := List.getElem_of_mem member
      have visited : current ∈ pointers := all.mem_iff.mpr (List.mem_range.mpr inside)
      have refused := List.find?_eq_none.mp found current visited
      simp [List.getElem?_eq_getElem inside, here, same] at refused

/-- A read returns the contents. -/
theorem Represents.readMem (rep : Represents mem contents) (enough : mem.heap.length < fuel)
    (address : BitVec 64)
    : mem.readMem fuel address = some (0, contents address) := by
  unfold Mem.readMem
  rcases rep.find enough (mask address) with ⟨current, block, found, here, same⟩ | ⟨found, nobody⟩
  · have cell := rep.cells block (List.mem_of_getElem? here) address same.symm
    simp [found, here, cell]
  · simp [found, rep.absent address nobody]

/-- Setting a cell keeps the ids. -/
theorem modify_ids (heap : List Block) (current : Nat) (cell : Fin (2 ^ 24)) (value : BitVec 64)
    : (heap.modify current (fun block => block.set cell value)).map Block.blockId
      = heap.map Block.blockId := by
  apply List.ext_getElem?
  intro place
  cases here : heap[place]? with
  | none => simpa [here] using List.getElem?_eq_none_iff.mp here
  | some block => by_cases same : current = place <;> simp [here, same, Block.set]

/-- A block after a cell was set in one of them is an old one, perhaps that one. -/
theorem mem_modify {heap : List Block} {current : Nat} {cell : Fin (2 ^ 24)} {value : BitVec 64}
    {block : Block} (member : block ∈ heap.modify current (fun block => block.set cell value))
    : ∃ place old,
        heap[place]? = some old
        ∧ block = if current = place then old.set cell value else old := by
  obtain ⟨place, found⟩ := List.getElem?_of_mem member
  rw [List.getElem?_modify] at found
  obtain ⟨old, here, rfl⟩ := Option.map_eq_some_iff.mp found
  refine ⟨place, old, here, ?_⟩
  split <;> rfl

/-- Two blocks with one id are at one place. -/
theorem Represents.place_unique (rep : Represents mem contents) {first second : Nat}
    {one two : Block} (here : mem.heap[first]? = some one) (there : mem.heap[second]? = some two)
    (same : one.blockId = two.blockId)
    : first = second := by
  have inside := (List.getElem?_eq_some_iff.mp here).1
  refine (List.getElem?_inj (by simpa using inside) rep.distinct).mp ?_
  simp [here, there, same]

/-- A write changes the cell of its own address only. -/
theorem set_mem (block : Block) {address other : BitVec 64} (value : BitVec 64)
    (masks : mask other = mask address) (same : block.mem (offset other) = contents other)
    : (block.set (offset address) value).mem (offset other)
      = Function.update contents address value other := by
  by_cases equal : other = address
  · subst other
    simp [Block.set]
  · have cells : offset other ≠ offset address := fun offsets => equal (split_injective masks offsets)
    simp [Block.set, cells, equal, same]

/-- A write into a block that exists. -/
theorem Represents.update (rep : Represents mem contents) {current : Nat} {block : Block}
    (here : mem.heap[current]? = some block) {address : BitVec 64}
    (same : block.blockId = mask address) (value : BitVec 64)
    : Represents
        { mem with heap := mem.heap.modify current (fun block => block.set (offset address) value) }
        (Function.update contents address value) := by
  have ids := modify_ids mem.heap current (offset address) value
  constructor
  case chain =>
    obtain ⟨pointers, chain, all⟩ := rep.chain
    refine ⟨pointers, chain.modify current _ (fun _ => rfl), ?_⟩
    simpa using all
  case distinct =>
    rw [ids]
    exact rep.distinct
  case aligned =>
    intro found member
    obtain ⟨place, old, there, rfl⟩ := mem_modify member
    have low := rep.aligned old (List.mem_of_getElem? there)
    split <;> exact low
  case cells =>
    intro found member other masks
    obtain ⟨place, old, there, rfl⟩ := mem_modify member
    have cell := rep.cells old (List.mem_of_getElem? there) other
    by_cases mine : current = place
    · subst place
      obtain rfl : block = old := Option.some.inj (here.symm.trans there)
      simp only [↓reduceIte] at masks ⊢
      exact set_mem block value (masks.trans same) (cell masks)
    · simp only [mine, ↓reduceIte] at masks ⊢
      have different : other ≠ address := by
        rintro rfl
        exact mine (rep.place_unique here there (same.trans masks))
      rw [Function.update_of_ne different]
      exact cell masks
  case absent =>
    intro other nobody
    have before (found : Block) (member : found ∈ mem.heap) : found.blockId ≠ mask other := by
      intro equal
      have listed : found.blockId ∈ mem.heap.map Block.blockId := List.mem_map_of_mem member
      rw [← ids] at listed
      obtain ⟨after, inside, also⟩ := List.mem_map.mp listed
      exact nobody after inside (also.trans equal)
    have different : other ≠ address := by
      rintro rfl
      exact before block (List.mem_of_getElem? here) same
    rw [Function.update_of_ne different]
    exact rep.absent other before

/-- A write that creates the first block with its id. -/
theorem Represents.create (rep : Represents mem contents) {address : BitVec 64}
    (nobody : ∀ block ∈ mem.heap, block.blockId ≠ mask address) (value : BitVec 64)
    : Represents
        {
          heap := mem.heap
            ++ [({ blockId := mask address, mem := fun _ => 0, next := mem.firstBlock } : Block).set
              (offset address) value]
          firstBlock := some mem.heap.length
        }
        (Function.update contents address value) := by
  constructor
  case chain =>
    obtain ⟨pointers, chain, all⟩ := rep.chain
    refine ⟨mem.heap.length :: pointers, chain.push _ rfl, ?_⟩
    rw [List.length_append, List.length_singleton, List.range_succ]
    exact (all.cons _).trans (List.perm_append_singleton _ _).symm
  case distinct =>
    rw [List.map_append, List.nodup_append]
    refine ⟨rep.distinct, by simp, ?_⟩
    intro id member other last
    obtain ⟨block, inside, rfl⟩ := List.mem_map.mp member
    obtain rfl : mask address = other := by simpa [Block.set, eq_comm] using last
    exact nobody block inside
  case aligned =>
    intro block member
    rcases List.mem_append.mp member with old | new
    · exact rep.aligned block old
    · obtain rfl := List.mem_singleton.mp new
      exact mask_low address
  case cells =>
    intro block member other masks
    rcases List.mem_append.mp member with old | new
    · have different : other ≠ address := by
        rintro rfl
        exact nobody block old masks.symm
      rw [Function.update_of_ne different]
      exact rep.cells block old other masks
    · obtain rfl := List.mem_singleton.mp new
      have masks : mask other = mask address := masks
      refine set_mem _ value masks (rep.absent other ?_).symm
      exact masks ▸ nobody
  case absent =>
    intro other none
    have different : other ≠ address := by
      rintro rfl
      exact none _ (List.mem_append_right _ (List.mem_singleton.mpr rfl)) rfl
    rw [Function.update_of_ne different]
    exact rep.absent other fun block member => none block (List.mem_append_left _ member)

-----------------------------------------------------------------------------------------
-- Runs
-----------------------------------------------------------------------------------------

/-- What one call does to a plain memory. -/
def plainCall (contents : BitVec 64 → BitVec 64) : MemCallback → BitVec 64 → BitVec 64
  | .readMem _ _ _ => contents
  | .writeMem address _ value => Function.update contents address value

/-- The value most recently written at exactly this address, or zero. -/
def latest (requests : List MemCallback) : BitVec 64 → BitVec 64 :=
  requests.foldl plainCall (fun _ => 0)

/-- The reply of a plain memory. -/
def plainReply (contents : BitVec 64 → BitVec 64) (request : MemCallback) : CallbackReturn :=
  {
    callback := request, status := 0
    word := match request with
      | .readMem address _ _ => contents address
      | .writeMem _ _ _ => 0
  }

/-- The blocks of an earlier memory are still there, in the same places. -/
def Kept (earlier later : Mem) : Prop :=
  earlier.heap.map Block.blockId <+: later.heap.map Block.blockId

/-- A call replies as the plain memory does, and keeps every block; a read keeps everything. -/
theorem Represents.callback (rep : Represents mem contents) (enough : mem.heap.length < fuel)
    (request : MemCallback)
    : ∃ after,
        mem.callback fuel request = some (plainReply contents request, after)
        ∧ Represents after (plainCall contents request)
        ∧ Kept mem after
        ∧ after.heap.length ≤ mem.heap.length + 1 := by
  cases request with
  | readMem address size destination =>
      refine ⟨mem, ?_, rep, List.prefix_refl _, Nat.le_succ _⟩
      simp [Mem.callback, rep.readMem enough, plainReply]
  | writeMem address size value =>
      rcases rep.find enough (mask address) with ⟨current, block, found, here, same⟩ | ⟨found, nobody⟩
      · refine ⟨_, ?_, rep.update here same value, ?_, by simp⟩
        · simp [Mem.callback, Mem.writeMem, found, plainReply]
        · have ids := modify_ids mem.heap current (offset address) value
          exact ⟨[], by rw [List.append_nil, ids]⟩
      · refine ⟨_, ?_, rep.create nobody value, ?_, by simp⟩
        · simp [Mem.callback, Mem.writeMem, found, plainReply]
        · unfold Kept
          rw [List.map_append]
          exact List.prefix_append _ _

/-- A run replies as the plain memory does, call by call; by induction on the calls. -/
theorem Represents.run (rep : Represents mem contents) (requests : List MemCallback)
    (enough : mem.heap.length + requests.length < fuel)
    : ∃ replies after,
        Mem.run fuel requests mem = some (replies, after)
        ∧ Represents after (requests.foldl plainCall contents)
        ∧ Kept mem after
        ∧ after.heap.length ≤ mem.heap.length + requests.length
        ∧ replies.length = requests.length
        ∧ ∀ before request rest,
            requests = before ++ request :: rest
            → replies[before.length]?
              = some (plainReply (before.foldl plainCall contents) request) := by
  induction requests generalizing mem contents with
  | nil => exact ⟨[], mem, rfl, rep, List.prefix_refl _, Nat.le_refl _, rfl, by simp⟩
  | cons first others ih =>
      simp only [List.length_cons] at enough
      have room : mem.heap.length < fuel := by omega
      obtain ⟨next, called, rep', kept, grown⟩ := rep.callback room first
      obtain ⟨replies, after, ran, final, later, size, count, each⟩ := ih rep' (by omega)
      have total : after.heap.length ≤ mem.heap.length + (others.length + 1) := by omega
      refine ⟨plainReply contents first :: replies, after, ?_, final, kept.trans later, total,
        by simp [count], ?_⟩
      · simp [Mem.run, called, ran]
      · intro before request rest split
        cases before with
        | nil =>
            obtain ⟨rfl, _⟩ := List.cons_eq_cons.mp split
            rfl
        | cons head tail =>
            obtain ⟨rfl, below⟩ := List.cons_eq_cons.mp split
            exact each tail request rest below

/-- Running two lists of calls in a row, by induction on the first. -/
theorem run_append (fuel : Nat) (before rest : List MemCallback) (mem : Mem)
    : Mem.run fuel (before ++ rest) mem
      = (Mem.run fuel before mem).bind fun (replies, next) =>
          (Mem.run fuel rest next).map (fun (more, final) => (replies ++ more, final)) := by
  induction before generalizing mem with
  | nil => simp [Mem.run]
  | cons first others ih =>
      cases called : mem.callback fuel first with
      | none => simp [Mem.run, called]
      | some result =>
          cases ran : Mem.run fuel others result.2 with
          | none => simp [Mem.run, called, ih, ran]
          | some earlier => simp [Mem.run, called, ih, ran, Option.map_map, Function.comp_def]

-----------------------------------------------------------------------------------------
-- Bytes
-----------------------------------------------------------------------------------------

/-- What one call does to a memory of bytes. -/
def byteCall (memory : ByteMemory) : MemCallback → ByteMemory
  | .readMem _ _ _ => memory
  | .writeMem address _ value => memory.storeWord address.toNat value

/-- The reply of a memory of bytes. -/
def byteReply (memory : ByteMemory) (request : MemCallback) : CallbackReturn :=
  plainReply (fun address => memory.loadWord address.toNat) request

/-- The doublewords of the bytes are the words of the plain memory. -/
def Agrees (memory : ByteMemory) (contents : BitVec 64 → BitVec 64) : Prop :=
  ∀ (address : BitVec 64) (i : Nat),
    address.toNat = 8 * i → memory.loadWord address.toNat = contents address

/-- Calls of the glue code keep bytes and words in agreement, by induction on the calls. -/
theorem Agrees.calls {memory : ByteMemory} (agrees : Agrees memory contents)
    {requests : List MemCallback} (issued : ∀ request ∈ requests, request.Issued)
    : Agrees (requests.foldl byteCall memory) (requests.foldl plainCall contents) := by
  induction requests generalizing memory contents with
  | nil => exact agrees
  | cons first others ih =>
      refine ih ?_ (fun request member => issued request (List.mem_cons_of_mem _ member))
      cases first with
      | readMem => exact agrees
      | writeMem target size value =>
          obtain ⟨j, place⟩ := (issued _ List.mem_cons_self).aligned
          have place : target.toNat = 8 * j := place
          intro address i aligned
          by_cases equal : address = target
          · subst address
            simp [byteCall, plainCall]
          · have apart : i ≠ j := by
              rintro rfl
              exact equal (BitVec.eq_of_toNat_eq (aligned.trans place.symm))
            have disjoint := ByteMemory.aligned_disjoint apart
            rw [← aligned, ← place] at disjoint
            rw [byteCall, plainCall, Function.update_of_ne equal,
              ByteMemory.loadWord_storeWord_disjoint memory value disjoint]
            exact agrees address i aligned

/-- On calls of the glue code, the two memories reply alike. -/
theorem Agrees.reply {memory : ByteMemory} (agrees : Agrees memory contents)
    {request : MemCallback} (issued : request.Issued)
    : plainReply contents request = byteReply memory request := by
  cases request with
  | writeMem => rfl
  | readMem address size destination =>
      obtain ⟨i, aligned⟩ := issued.aligned
      simp [byteReply, plainReply, agrees address i aligned]

/-- What a run of calls from the empty store leaves and replies. -/
structure BlockMemory (requests : List MemCallback) (replies : List CallbackReturn) (mem : Mem)
    : Prop where
  /-- Every call returns zero, and a read finds the value most recently written at exactly its
  address. -/
  count : replies.length = requests.length
  plain
    : ∀ before request rest,
        requests = before ++ request :: rest
        → replies[before.length]? = some (plainReply (latest before) request)
  /-- The list is finite, without a cycle, and holds every block ever created. -/
  list
    : ∃ pointers,
        Chain Block.next mem.heap mem.firstBlock pointers
        ∧ pointers.Nodup
        ∧ ∀ pointer, pointer ∈ pointers ↔ pointer < mem.heap.length
  represents : Represents mem (latest requests)
  /-- On the calls of the glue code, a memory of bytes that are zero at first replies alike. -/
  bytes
    : (∀ request ∈ requests, request.Issued)
      → ∀ before request rest,
          requests = before ++ request :: rest
          → replies[before.length]?
            = some (byteReply (before.foldl byteCall (fun _ => 0)) request)

/-- Every run of calls from the empty store ends, replies as a plain memory does, keeps every
block that it creates, and no read changes the store that it leaves.
-/
theorem blockMemory_plain (requests : List MemCallback) (extra : Nat)
    : ∃ replies mem,
        Mem.run (requests.length + 1 + extra) requests Mem.empty = some (replies, mem)
        ∧ BlockMemory requests replies mem
        ∧ (∀ before rest,
            requests = before ++ rest
            → ∃ first earlier,
                Mem.run (requests.length + 1 + extra) before Mem.empty = some (first, earlier)
                ∧ Kept earlier mem)
        ∧ ∀ address size destination,
            mem.callback (requests.length + 1 + extra) (.readMem address size destination)
            = some (plainReply (latest requests) (.readMem address size destination), mem) := by
  have room : Mem.empty.heap.length + requests.length < requests.length + 1 + extra := by
    show 0 + requests.length < _
    omega
  obtain ⟨replies, mem, ran, rep, _, size, count, plain⟩ := Represents.empty.run requests room
  have zeros : Agrees (fun _ => 0) (fun _ => 0) := by
    intro address i _
    rw [ByteMemory.loadWord, ByteMemory.load_zero]
    rfl
  have short : mem.heap.length < requests.length + 1 + extra := by omega
  refine ⟨replies, mem, ran, ⟨count, plain, ?_, rep, ?_⟩, ?_, ?_⟩
  · obtain ⟨pointers, chain, all⟩ := rep.chain
    exact ⟨pointers, chain, chain.nodup, fun pointer => by rw [all.mem_iff, List.mem_range]⟩
  · intro issued before request rest split
    rw [plain before request rest split]
    have listed : ∀ earlier ∈ before, earlier.Issued := fun earlier member =>
      issued earlier (split ▸ List.mem_append_left _ member)
    rw [(zeros.calls listed).reply (issued request (by simp [split]))]
  · intro before rest split
    have total : requests.length = before.length + rest.length := by
      rw [split, List.length_append]
    have none : Mem.empty.heap.length = 0 := rfl
    have enough : Mem.empty.heap.length + before.length < requests.length + 1 + extra := by omega
    obtain ⟨first, earlier, started, middle, _, grown, _⟩ := Represents.empty.run before enough
    obtain ⟨more, final, ended, _, kept, _⟩ :=
      middle.run rest (show earlier.heap.length + rest.length < requests.length + 1 + extra by omega)
    have whole := run_append (requests.length + 1 + extra) before rest Mem.empty
    rw [← split, ran, started] at whole
    simp only [Option.bind_some, ended, Option.map_some, Option.some.injEq, Prod.mk.injEq] at whole
    obtain ⟨_, rfl⟩ := whole
    exact ⟨first, earlier, started, kept⟩
  · intro address size destination
    simp only [Mem.callback, rep.readMem short, Option.map_some]
    rfl

end TestMain

end VcmlPydrofoil
