import VcmlPydrofoil.Model.DmiCache

/-! Transactions and the exclusive monitor `vcml::tlm_exmon` of a target socket: the locks that
exclusive reads set, and what they do to later transactions and to direct memory access.
-/

namespace VcmlPydrofoil

/-- The sideband information `tlm_sbi` of a transaction, as far as memories look at it. -/
structure TlmSbi where
  isDebug : Bool := false
  isNodmi : Bool := false
  isExcl : Bool := false
  cpuid : BitVec 64 := 0
  deriving DecidableEq

/-- A `tlm_generic_payload` as `tx_setup` makes it, without byte enables and with the streaming
width equal to the length. The bytes of its buffer are a number in the host's byte order.
-/
structure TlmPayload where
  command : TlmCommand
  address : BitVec 64
  size : BitVec 32
  data : Nat
  isDmiAllowed : Bool := false
  status : TlmResponseStatus := .incomplete
  sbi : TlmSbi := {}
  deriving DecidableEq

/-- `range::range(const tlm_generic_payload&)`. -/
def TlmPayload.range (tx : TlmPayload) : AddressRange := .ofAccess tx.address tx.size

/-- `exlock`. -/
structure Exlock where
  cpu : BitVec 32
  addr : AddressRange
  deriving DecidableEq

/-- `tlm_exmon`, by its list of locks. -/
abbrev TlmExmon := List Exlock

namespace TlmExmon

/-- `tlm_exmon::has_lock`. -/
def hasLock (locks : TlmExmon) (cpu : BitVec 32) (r : AddressRange) : Bool :=
  locks.any (fun lock => lock.cpu == cpu && lock.addr.includes r)

/-- `tlm_exmon::break_locks(int)`. -/
def breakLocksOf (locks : TlmExmon) (cpu : BitVec 32) : TlmExmon :=
  locks.filter (fun lock => lock.cpu != cpu)

/-- `tlm_exmon::break_locks(const range&)`. -/
def breakLocks (locks : TlmExmon) (r : AddressRange) : TlmExmon :=
  locks.filter (fun lock => !lock.addr.overlaps r)

/-- `tlm_exmon::add_lock`. -/
def addLock (locks : TlmExmon) (cpu : BitVec 32) (r : AddressRange) : TlmExmon :=
  locks.breakLocksOf cpu ++ [{ cpu, addr := r }]

/-- `tlm_exmon::update`: the result says whether the transaction proceeds. The `cpuid` is narrowed
to `int`.
-/
def update (locks : TlmExmon) (tx : TlmPayload) : Bool × TlmPayload × TlmExmon :=
  let cpu := tx.sbi.cpuid.setWidth 32
  let allowed := tx.isDmiAllowed && !locks.any (fun lock => lock.addr.overlaps tx.range)
  let excl := tx.sbi.isExcl && (tx.command != .write || locks.hasLock cpu tx.range)
  let proceed := !tx.sbi.isExcl || excl
  let locks :=
    match tx.command with
    | .read => if tx.sbi.isExcl then locks.addLock cpu tx.range else locks
    | .write => locks.breakLocks tx.range
    | .ignore => locks
  (proceed, { tx with isDmiAllowed := allowed, sbi := { tx.sbi with isExcl := excl } }, locks)

/-- One round of the second loop of `tlm_exmon::override_dmi`. -/
def restrictDmi (address : BitVec 64) (dmi : TlmDmi) (lock : Exlock) : TlmDmi :=
  let dmi :=
    if lock.addr.last < address && dmi.start ≤ lock.addr.last then
      dmi.setStartAddress (lock.addr.last + 1)
    else dmi
  if lock.addr.start > address && dmi.last ≥ lock.addr.start then
    { dmi with last := lock.addr.start - 1 }
  else dmi

/-- `tlm_exmon::override_dmi`; `none` is the result `false`, after which no caller looks at the
window.
-/
def overrideDmi (locks : TlmExmon) (tx : TlmPayload) (dmi : TlmDmi) : Option TlmDmi :=
  if locks.any (fun lock => lock.addr.includesAddr tx.address) then none
  else some (locks.foldl (restrictDmi tx.address) dmi)

end TlmExmon

end VcmlPydrofoil
