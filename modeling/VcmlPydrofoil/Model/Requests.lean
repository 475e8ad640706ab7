import VcmlPydrofoil.Model.EntryPoints

/-! The C interface of the plugin as a whole: calls for any number of CPUs in one process, one after
another, in an environment that answers their accesses.
-/

namespace VcmlPydrofoil

open Interaction (Tree Program)

variable {χ ω : Type} (ext : Pydrofoil χ) (answer : Environment ω)

/-- A handle is freed when it is in the list. -/
theorem Gluecode.freeCpu_eq (i : Option Handle) (world : World χ)
    : Gluecode.freeCpu i world
      = if (world.object? i).isSome then
          .ret (some 0,
            { world with objects := world.objects.filter (fun entry => some entry.1 ≠ i) })
        else .ret (some (-1), world) := by
  by_cases live : (world.object? i).isSome = true
  · rw [if_pos live]
    exact congrFun (if_pos live) world
  · rw [if_neg live]
    exact congrFun (if_neg live) world

/-- A call from C. -/
inductive Request where
  | allocateCpu (spec fn : Option String)
  | freeCpu (i : Option Handle)
  | entry (i : Option Handle) (point : EntryPoint)
  | cpuCycles (i : Option Handle)
  | cpuPc (i : Option Handle)
  deriving DecidableEq

/-- What a call returns: a handle, an `int`, or a `uint64_t`. -/
inductive ApiResult where
  | cpu (i : Option Handle)
  | status (status : BitVec 32)
  | value (value : BitVec 64)
  deriving DecidableEq

namespace ApiResult

/-- A handle that was returned; NULL is `none`. -/
def cpu? : ApiResult → Option Handle
  | .cpu i => i
  | _ => none

/-- An `int` that was returned. -/
def int : ApiResult → BitVec 32
  | .status result => result
  | _ => 0

/-- A `uint64_t` that was returned. -/
def uint64 : ApiResult → BitVec 64
  | .value result => result
  | _ => 0

end ApiResult

/-- One call of the interface, in a Python world. -/
def Request.call (request : Request) (world : World χ)
    : Tree CCallback CCallback.Reply (ApiResult × World χ) :=
  match request with
  | .allocateCpu spec fn =>
      (defExtern none some (Gluecode.allocateCpu ext spec fn) world).map
        (fun (cpu, world) => (.cpu cpu, world))
  | .freeCpu i =>
      (defExtern 0 toInt (Gluecode.freeCpu i) world).map
        (fun (status, world) => (.status status, world))
  | .entry i point =>
      (defExtern 0 toInt (point.function ext i) world).map
        (fun (status, world) => (.status status, world))
  | .cpuCycles i =>
      (defExtern 0 toUInt64 (Gluecode.cpuCycles i) world).map
        (fun (cycles, world) => (.value cycles, world))
  | .cpuPc i =>
      (defExtern 0 some (Gluecode.cpuPc ext i) world).map (fun (pc, world) => (.value pc, world))

/-- The Python world, and the environment of the registered functions. -/
structure Process (χ ω : Type) where
  world : World χ := {}
  env : ω

namespace Process

/-- Serve a call. -/
def serve (process : Process χ ω) (request : Request) : ApiResult × Process χ ω :=
  let out := (request.call ext process.world).run answer process.env
  (out.1.1, { world := out.1.2, env := out.2 })

/-- Calls in a row, each with what it returns. -/
def serveAll : List Request → Process χ ω → List (Request × ApiResult) × Process χ ω
  | [], process => ([], process)
  | request :: rest, process =>
      let (response, next) := process.serve ext answer request
      let (responses, last) := serveAll rest next
      ((request, response) :: responses, last)

@[simp] theorem serveAll_nil (process : Process χ ω)
    : process.serveAll ext answer [] = ([], process) := rfl

@[simp] theorem serveAll_cons (process : Process χ ω) (request : Request) (rest : List Request)
    : process.serveAll ext answer (request :: rest)
      = (let next := (process.serve ext answer request).2.serveAll ext answer rest
         ((request, (process.serve ext answer request).1) :: next.1, next.2)) := rfl

end Process

end VcmlPydrofoil
