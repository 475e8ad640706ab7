import VcmlPydrofoil.Model.Gluecode
import VcmlPydrofoil.Model.Sequential

/-! The path of an access from a CPU object to the bus: the closures of the glue code call the
callbacks of the core, which serve the access in place.
-/

namespace VcmlPydrofoil

open Interaction (Tree Program)

variable {π β χ α : Type}

namespace Sequential

variable (vp : Platform π β) (started : Bool)

/-- A call of a registered function, when the core has registered its own callbacks. -/
def invoke (state : Sequential π β) (call : CCallback) : call.Reply × Sequential π β :=
  let (reply, next) := state.callback vp started call.toMemCallback
  (call.reply reply, next)

/-- An entry point of the glue code runs with the core's callbacks. -/
theorem run_toApiCall {σ : Type} (tree : Tree CCallback CCallback.Reply (α × σ))
    (state : Sequential π β)
    : (toApiCall tree).run (callback vp started) state = tree.run (invoke vp started) state := by
  rw [toApiCall, Tree.run_embed]
  rfl

/-- A handler that calls the plugin goes on with the result and the world of that call. -/
theorem follow_call (function : ApiFunction) (body : ApiCall π α) (rest : α → π → Script π)
    (state : Sequential π β)
    : state.follow vp started (Script.call function body rest)
      = follow vp started (rest (body.run (callback vp started) state).1.1
            (body.run (callback vp started) state).1.2)
          { (body.run (callback vp started) state).2 with
            py := (body.run (callback vp started) state).1.2 } := by
  unfold Script.call follow
  rw [Tree.run_ask, Tree.run_bind, Tree.run_embed]
  rfl

end Sequential

namespace Sequential

variable (vp : Platform π β) (state : Sequential π β) {started : Bool} {request : MemCallback}

/-- Outside the windows, a callback does nothing but clear its destination. -/
theorem callback_filtered (refused : accepted request.address = false)
    : state.callback vp started request
      = (request.filteredReply, state.leaveCallback request 0 0) := by
  simp [callback, refused]

/-- Inside the windows and without a simulation, a callback leaves its destination alone. -/
theorem callback_dropped (passed : accepted request.address = true)
    : state.callback vp false request
      = (request.droppedReply, state.leaveCallback request 0 request.destination) := by
  simp [callback, passed]

/-- Inside the windows and during a simulation, a callback replies what its service yields. -/
theorem callback_served (request : MemCallback) (passed : accepted request.address = true)
    : (state.callback vp true request).1
        = request.reply
            (callbackStatus
              (serve vp.bus state.bus (request.toMemAccess 0) request.destination).success)
            (serve vp.bus state.bus (request.toMemAccess 0) request.destination).destination
      ∧ (state.callback vp true request).2.bus
        = (serve vp.bus state.bus (request.toMemAccess 0) request.destination).bus := by
  simp [callback, passed, leaveCallback]

end Sequential

/-- A CPU that makes these accesses in order, whatever the replies. -/
def accessing : List PyAccess → Tree PyAccess PyAccess.Reply Unit
  | [] => .ret ()
  | access :: rest => .ask access (fun _ => accessing rest)

namespace C

variable {vp : Platform π β} {started : Bool} {object : C χ} {state next : Sequential π β}
variable {i : Nat}

/-- A read through the closures: the buffer goes out with its old word and keeps the new one. -/
theorem pyread_invoke (payload : Pointer) {read : Pointer} {status : BitVec 32} {word : BitVec 64}
    (registered : object.read = some read) (fits : i <<< 3 < 2 ^ 64)
    (called
      : state.callback vp started (.readMem (BitVec.ofNat 64 (i <<< 3)) 8 object.mem)
        = ((status, word), next))
    : (pyread (some payload) i).runIn (Sequential.invoke vp started) object state
      = ((if status = 0 then some word else none, { object with mem := word }), next) := by
  have invoked
      : Sequential.invoke vp started state
          (.read read object.handle (BitVec.ofNat 64 (i <<< 3)) 8 object.mem payload)
        = ((status, word), next) := called
  unfold pyread
  simp only [Program.runIn_bind, Program.runIn_get, registered, fits, ↓reduceIte,
    Program.runIn_ask, Program.runIn_modify, invoked]
  split <;> rfl

/-- A write through the closures. -/
theorem pywrite_invoke (payload : Pointer) {write : Pointer} {value : BitVec 64} {status : BitVec 32}
    (registered : object.write = some write) (fits : i <<< 3 < 2 ^ 64)
    (called
      : state.callback vp started (.writeMem (BitVec.ofNat 64 (i <<< 3)) 8 value) = (status, next))
    : (pywrite (some payload) i value).runIn (Sequential.invoke vp started) object state
      = ((if status = 0 then some () else none, object), next) := by
  have invoked
      : Sequential.invoke vp started state
          (.write write object.handle (BitVec.ofNat 64 (i <<< 3)) 8 value payload)
        = (status, next) := called
  unfold pywrite
  simp only [Program.runIn_bind, Program.runIn_get, registered, fits, ↓reduceIte,
    Program.runIn_ask, invoked]
  split <;> rfl

/-- A read whose address does not fit is refused before the call. -/
theorem pyread_refused {payload : Pointer} (large : ¬ i <<< 3 < 2 ^ 64)
    : (pyread (some payload) i).runIn (Sequential.invoke vp started) object state
      = ((none, object), state) := by
  unfold pyread
  cases registered : object.read with
  | none => simp [registered]
  | some read =>
      simp only [Program.runIn_bind, Program.runIn_get, registered, large, ↓reduceIte]
      rfl

end C

end VcmlPydrofoil
