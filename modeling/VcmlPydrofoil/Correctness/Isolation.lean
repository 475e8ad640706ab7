import Mathlib.Logic.Function.Basic
import VcmlPydrofoil.Model.Requests
import VcmlPydrofoil.Plugin.Objects

/-! CPUs of one process do not influence each other: with registered functions that find their state
through the payload, a CPU behaves as it would alone, whatever is called for the others in between.
-/

namespace VcmlPydrofoil

open Interaction (Tree Program)

variable {χ ω α : Type} {ext : Pydrofoil χ}

/-- The payload that a registered function gets. -/
def CCallback.payload : CCallback → Pointer
  | .read _ _ _ _ _ payload => payload
  | .write _ _ _ _ _ payload => payload

/-- Registered functions with a state for each payload. -/
def Environment.perPayload (answer : Environment ω) : Environment (Pointer → ω) :=
  fun env call =>
    let out := answer (env call.payload) call
    (out.1, Function.update env call.payload out.2)

-----------------------------------------------------------------------------------------
-- Objects
-----------------------------------------------------------------------------------------

namespace C

/-- The closures of the object, and those of its CPU, have payloads of this kind. -/
def Holds (own : Pointer → Prop) (object : C χ) : Prop :=
  (∀ payload, object.callbacks = some payload → own payload)
  ∧ ∀ cpu payload, object.cpu = some cpu → cpu.payload = some payload → own payload

variable {own : Pointer → Prop} {object : C χ}

/-- A call with a payload of the kind. -/
theorem own_of_calls {payload : Option Pointer} {call : CCallback}
    (holds : ∀ passed, payload = some passed → own passed) (calls : object.Calls payload call)
    : own call.payload := by
  cases call with
  | read => exact holds _ calls.2
  | write => exact holds _ calls.2

/-- A reset builds the CPU with the closures of the object. -/
theorem Holds.reset (ext : Pydrofoil χ) (holds : object.Holds own)
    : (C.reset ext).Ensures object (fun call => own call.payload) (fun _ next => next.Holds own) := by
  unfold C.reset
  simp only [Program.ensures_bind, Program.ensures_get]
  refine Tree.Always.mono (intercept_ensures object _ _) (fun _ => own_of_calls holds.1) ?_
  rintro ⟨result, next⟩ ⟨returned, word, rfl⟩
  obtain ⟨made, rfl⟩ := Option.isSome_iff_exists.mp returned
  cases made with
  | none => exact holds
  | some state =>
      refine ⟨holds.1, ?_⟩
      rintro _ payload ⟨⟩ same
      exact holds.1 payload same

/-- A step calls with the payload of the CPU. -/
theorem Holds.step (ext : Pydrofoil χ) (holds : object.Holds own)
    : (C.step ext).Ensures object (fun call => own call.payload) (fun _ next => next.Holds own) := by
  cases built : object.cpu with
  | none =>
      unfold C.step
      simp only [Program.ensures_bind, Program.ensures_modify, Program.ensures_get, built,
        Program.ensures_raise]
      exact ⟨holds.1, fun _ _ same => absurd same (Option.some_ne_none _).symm⟩
  | some cpu =>
      refine Tree.Always.mono (C.step_ensures object built)
        (fun _ => own_of_calls (holds.2 cpu · built)) ?_
      rintro ⟨result, next⟩ ⟨state, word, rfl⟩
      refine ⟨holds.1, ?_⟩
      rintro _ payload ⟨⟩ same
      exact holds.2 cpu payload built same

/-- A method of the CPU calls nothing. -/
theorem Holds.onCpu (method : χ → Bool × χ) (holds : object.Holds own)
    : (C.onCpu method).Ensures object (fun call => own call.payload)
        (fun _ next => next.Holds own) := by
  unfold C.onCpu
  simp only [Program.ensures_bind, Program.ensures_get]
  split
  · rename_i cpu built
    simp only [Program.ensures_bind, Program.ensures_modify]
    have still
        : ({ object with cpu := some { cpu with state := (method cpu.state).2 } } : C χ).Holds own := by
      refine ⟨holds.1, ?_⟩
      rintro _ payload ⟨⟩ same
      exact holds.2 cpu payload built same
    split
    · exact still
    · exact still
  · exact holds

end C

/-- An entry point calls with payloads of the kind, if it registers one of the kind. -/
theorem EntryPoint.body_holds (ext : Pydrofoil χ) {own : Pointer → Prop} {object : C χ}
    (holds : object.Holds own) (entry : EntryPoint)
    (registers
      : ∀ read write payload, entry = .setRamReadWriteCallback read write payload → own payload)
    : (entry.body ext).Ensures object (fun call => own call.payload)
        (fun _ next => next.Holds own) := by
  cases entry with
  | simulate steps =>
      exact Program.ensures_returning.mpr
        (Program.Ensures.times (fun _ fine => C.Holds.step ext fine) steps.toNat object holds)
  | reset => exact Program.ensures_returning.mpr (holds.reset ext)
  | setRamReadWriteCallback read write payload =>
      have mine := registers read write payload rfl
      unfold EntryPoint.body C.setCallbacks
      simp only [Program.ensures_bind, Program.ensures_modify]
      cases ext.callbacks with
      | false => exact holds
      | true =>
          have installed
              : ({
                  object with
                  read := some read, write := some write, mem := 0, callbacks := some payload
                } : C χ).Holds own := by
            refine ⟨?_, holds.2⟩
            rintro _ ⟨⟩
            exact mine
          simp only [↓reduceIte, Program.ensures_modify]
          exact Program.ensures_bind.mp
            (Program.ensures_returning.mpr (installed.reset ext)
              : (C.reset ext >>= fun _ => pure (0 : Int)).Ensures _ _ _)
  | setVerbosity verbose => exact Program.ensures_returning.mpr (holds.onCpu _)
  | setPc value => exact Program.ensures_returning.mpr (holds.onCpu _)

-----------------------------------------------------------------------------------------
-- Worlds
-----------------------------------------------------------------------------------------

namespace World

variable {world : World χ} {h : Handle} {object : C χ}

/-- An object that changes leaves those behind the other handles. -/
theorem object?_update_other {i : Option Handle} (other : i ≠ some h) (changed : C χ)
    : (world.update i changed).object? (some h) = world.object? (some h) := by
  obtain ⟨objects, nextHandle⟩ := world
  simp only [object?, update, Option.bind_some]
  induction objects with
  | nil => rfl
  | cons entry rest ih =>
      obtain ⟨first, value⟩ := entry
      rw [List.map_cons]
      simp only [List.lookup_cons]
      rw [← ih]
      by_cases same : some first = i
      · have apart : (h == first) = false := by
          rw [beq_eq_false_iff_ne]
          rintro rfl
          exact other same.symm
        simp only [same, ↓reduceIte, List.lookup_cons, apart]
      · simp only [same, ↓reduceIte, List.lookup_cons]

/-- A handle that is freed leaves the objects behind the other ones. -/
theorem object?_filter_other {i : Option Handle} (other : i ≠ some h)
    : { world with objects := world.objects.filter (fun entry => some entry.1 ≠ i) }.object? (some h)
      = world.object? (some h) := by
  obtain ⟨objects, nextHandle⟩ := world
  simp only [object?, Option.bind_some]
  induction objects with
  | nil => rfl
  | cons entry rest ih =>
      obtain ⟨first, value⟩ := entry
      by_cases same : some first = i
      · have apart : (h == first) = false := by
          rw [beq_eq_false_iff_ne]
          rintro rfl
          exact other same.symm
        rw [List.filter_cons_of_neg (by simpa using same), ih, List.lookup_cons, apart]
      · rw [List.filter_cons_of_pos (by simpa using same), List.lookup_cons, ih, List.lookup_cons]

/-- A new CPU comes after those that are there. -/
theorem object?_append (live : world.object? (some h) = some object) (entry : Handle × C χ)
    (nextHandle : Handle)
    : ({ objects := world.objects ++ [entry], nextHandle } : World χ).object? (some h)
      = some object := by
  simp only [object?, Option.bind_some] at live ⊢
  rw [List.lookup_append, live]
  rfl

/-- An object behind a handle is in the list. -/
theorem mem_of_object? (live : world.object? (some h) = some object)
    : (h, object) ∈ world.objects := by
  obtain ⟨before, after, same, _⟩ := List.lookup_eq_some_iff.mp live
  rw [same]
  exact List.mem_append_right _ List.mem_cons_self

/-- Each object holds payloads of its own only. -/
def Separate (own : Handle → Pointer → Prop) (world : World χ) : Prop :=
  ∀ entry ∈ world.objects, entry.2.Holds (own entry.1)

end World

/-- The handle of the CPU that a call is for. -/
def Request.handle? : Request → Option Handle
  | .allocateCpu _ _ => none
  | .freeCpu i | .entry i _ | .cpuCycles i | .cpuPc i => i

/-- The call registers this payload for this CPU. -/
def Request.Registers (request : Request) (i : Handle) (payload : Pointer) : Prop :=
  ∃ read write, request = .entry (some i) (.setRamReadWriteCallback read write payload)

-----------------------------------------------------------------------------------------
-- One call
-----------------------------------------------------------------------------------------

variable {own : Handle → Pointer → Prop} {world : World χ} {h : Handle} {object : C χ}

/-- What a call does to a world whose CPUs are separate: it calls with payloads of its own CPU, and
leaves the objects of the others.
-/
def Request.Confined (own : Handle → Pointer → Prop) (request : Request) (world : World χ)
    {γ : Type} (tree : Tree CCallback CCallback.Reply (γ × World χ))
    : Prop :=
  tree.Always (fun call => ∃ i, request.handle? = some i ∧ own i call.payload)
    (fun out =>
      out.2.Separate own
      ∧ ∀ h object,
          request.handle? ≠ some h
          → world.object? (some h) = some object
          → out.2.object? (some h) = some object)

/-- The conversions of the result change no world. -/
theorem Request.Confined.converted {γ : Type} {request : Request} {body : Py (World χ) α}
    (confined : request.Confined own world (body world)) (default : γ) (convert : α → Option γ)
    (response : γ → ApiResult)
    : request.Confined own world
        ((defExtern default convert body world).map (fun out => (response out.1, out.2))) :=
  Tree.always_bind.mpr
    (Tree.always_bind.mpr (Tree.Always.mono confined (fun _ asked => asked) fun _ ended => ended))

/-- A body that works on the object behind the handle of the call. -/
theorem Request.confined_fromHandle (request : Request) (separate : world.Separate own)
    {body : Py (C χ) α}
    (keeps
      : ∀ i object,
          request.handle? = some i
          → object.Holds (own i)
          → body.Ensures object (fun call => own i call.payload) (fun _ next => next.Holds (own i)))
    : request.Confined own world (Gluecode.fromHandle request.handle? body world) := by
  unfold Gluecode.fromHandle
  cases live : world.object? request.handle? with
  | none => exact ⟨separate, fun _ _ _ there => there⟩
  | some object =>
      obtain ⟨i, same, found⟩ := Option.bind_eq_some_iff.mp live
      rw [same] at live
      have holds := separate _ (World.mem_of_object? live)
      refine Tree.always_bind.mpr (Tree.Always.mono (keeps i object same holds)
        (fun call asked => ⟨i, same, asked⟩) ?_)
      rintro ⟨result, changed⟩ still
      refine ⟨?_, fun h other apart there => ?_⟩
      · intro entry member
        obtain ⟨old, before, rfl⟩ := List.mem_map.mp member
        split
        · next mine =>
            rw [same] at mine
            obtain rfl := Option.some.inj mine
            exact still
        · exact separate old before
      · rw [World.object?_update_other apart]
        exact there

/-- A call that registers its own payloads is confined, by cases on the call. -/
theorem Request.call_confined (ext : Pydrofoil χ) (separate : world.Separate own)
    (request : Request) (registers : ∀ i payload, request.Registers i payload → own i payload)
    : request.Confined own world (request.call ext world) := by
  cases request with
  | allocateCpu spec fn =>
      refine Confined.converted ?_ none some .cpu
      have bare (rv64 : Bool)
          : ({ rv64, arg := fn } : C χ).Holds (fun _ => False) :=
        ⟨fun _ same => absurd same (Option.some_ne_none _).symm,
          fun _ _ same => absurd same (Option.some_ne_none _).symm⟩
      refine Tree.always_bind.mpr (Tree.Always.mono ((bare _).reset ext)
        (fun _ never => absurd never not_false) ?_)
      rintro ⟨_ | _, made⟩ holds
      · exact ⟨separate, fun _ _ _ there => there⟩
      · refine ⟨?_, fun _ _ _ there => World.object?_append there _ _⟩
        intro entry member
        rcases List.mem_append.mp member with before | new
        · exact separate entry before
        · obtain rfl := List.mem_singleton.mp new
          exact ⟨fun payload same => (holds.1 payload same).elim,
            fun cpu payload built same => (holds.2 cpu payload built same).elim⟩
  | freeCpu i =>
      refine Confined.converted ?_ 0 toInt .status
      rw [Gluecode.freeCpu_eq]
      split
      · refine ⟨fun entry member => separate entry (List.mem_filter.mp member).1, ?_⟩
        intro h object other there
        exact (World.object?_filter_other other).trans there
      · exact ⟨separate, fun _ _ _ there => there⟩
  | entry i point =>
      refine Confined.converted ?_ 0 toInt .status
      rw [EntryPoint.function_eq]
      refine Request.confined_fromHandle (.entry i point) separate
        fun handle object same holds => point.body_holds ext holds fun read write payload is => ?_
      exact registers handle payload ⟨read, write, by rw [is, ← same]; rfl⟩
  | cpuCycles i =>
      refine Confined.converted ?_ 0 toUInt64 .value
      exact Request.confined_fromHandle (.cpuCycles i) separate
        fun handle object same holds => holds
  | cpuPc i =>
      refine Confined.converted ?_ 0 some .value
      refine Request.confined_fromHandle (.cpuPc i) separate
        fun handle object same holds => ?_
      unfold C.readRegister
      simp only [Program.ensures_bind, Program.ensures_get]
      split
      · exact holds
      · exact holds

-----------------------------------------------------------------------------------------
-- Two processes
-----------------------------------------------------------------------------------------

variable {answer : Environment ω}

/-- A call with a payload of the kind is answered from the states of this kind. -/
theorem Environment.perPayload_agree (answer : Environment ω) {mine : Pointer → Prop}
    {env other : Pointer → ω} (agree : ∀ payload, mine payload → env payload = other payload)
    (call : CCallback) (asked : mine call.payload)
    : (answer.perPayload env call).1 = (answer.perPayload other call).1
      ∧ ∀ payload,
          mine payload
          → (answer.perPayload env call).2 payload = (answer.perPayload other call).2 payload := by
  unfold perPayload
  dsimp only
  rw [agree _ asked]
  refine ⟨rfl, fun payload is_mine => ?_⟩
  by_cases same : payload = call.payload
  · rw [same, Function.update_self, Function.update_self]
  · rw [Function.update_of_ne same, Function.update_of_ne same]
    exact agree payload is_mine

/-- A call with another payload leaves the states of this kind. -/
theorem Environment.perPayload_other (env : Pointer → ω) {call : CCallback} {payload : Pointer}
    (other : payload ≠ call.payload)
    : (answer.perPayload env call).2 payload = env payload :=
  Function.update_of_ne other _ _

namespace Process

variable {first second : Process χ (Pointer → ω)} {request : Request}

/-- A process with separate CPUs, and another one with the same object behind this handle and the
same states of its payloads.
-/
structure Alike (own : Handle → Pointer → Prop) (h : Handle) (first second : Process χ (Pointer → ω))
    : Prop where
  separate : first.world.Separate own
  object : ∃ object, first.world.object? (some h) = some object
    ∧ second.world.object? (some h) = some object
  env : ∀ payload, own h payload → first.env payload = second.env payload

/-- A call for another CPU is not noticed. -/
theorem Alike.serve_other (ext : Pydrofoil χ) (answer : Environment ω)
    (alike : Alike own h first second)
    (registers : ∀ i payload, request.Registers i payload → own i payload)
    (apart : ∀ i payload, own i payload → own h payload → i = h)
    (other : request.handle? ≠ some h)
    : Alike own h (first.serve ext answer.perPayload request).2 second := by
  have confined := request.call_confined ext alike.separate registers
  obtain ⟨separate, keeps⟩ := Tree.Always.run confined answer.perPayload first.env
  obtain ⟨object, live, same⟩ := alike.object
  refine ⟨separate, ⟨object, keeps h object other live, same⟩, ?_⟩
  intro payload mine
  refine Tree.Always.run_keeps
    (fun env : Pointer → ω => env payload = second.env payload) ?_ confined (alike.env payload mine)
  rintro env call kept ⟨i, for_i, asked⟩
  refine (Environment.perPayload_other env ?_).trans kept
  rintro rfl
  exact other (apart i _ asked mine ▸ for_i)

/-- A call that works on the object behind the handle does the same in both processes. -/
theorem Alike.fromHandle {γ : Type} (answer : Environment ω) (alike : Alike own h first second)
    {body : Py (C χ) α}
    (keeps
      : ∀ object : C χ,
          object.Holds (own h)
          → body.Ensures object (fun call => own h call.payload) (fun _ _ => True))
    (default : γ) (convert : α → Option γ) (response : γ → ApiResult)
    : let call world := (defExtern default convert (Gluecode.fromHandle (some h) body) world).map
        (fun out => (response out.1, out.2))
      let one := (call first.world).run answer.perPayload first.env
      let two := (call second.world).run answer.perPayload second.env
      one.1.1 = two.1.1
      ∧ (∃ object, one.1.2.object? (some h) = some object ∧ two.1.2.object? (some h) = some object)
      ∧ ∀ payload, own h payload → one.2 payload = two.2 payload := by
  obtain ⟨object, live, same⟩ := alike.object
  have holds := alike.separate _ (World.mem_of_object? live)
  obtain ⟨result, agree⟩ := Tree.Always.run_related
    (fun (env other : Pointer → ω) call
        (agree : ∀ payload, own h payload → env payload = other payload) asked =>
      Environment.perPayload_agree answer agree call asked)
    (keeps object holds) alike.env
  have equal
      : (body.runIn answer.perPayload object first.env).1
        = (body.runIn answer.perPayload object second.env).1 := result
  unfold Interaction.Tree.map
  dsimp only
  rw [Tree.run_bind, Tree.run_bind, run_defExtern, run_defExtern, run_fromHandle _ live,
    run_fromHandle _ same, equal]
  exact ⟨rfl, ⟨_, World.object?_update live _, World.object?_update same _⟩, agree⟩

/-- A call for the CPU returns the same in both processes. -/
theorem Alike.serve_own (ext : Pydrofoil χ) (answer : Environment ω)
    (alike : Alike own h first second)
    (registers : ∀ i payload, request.Registers i payload → own i payload)
    (for_h : request.handle? = some h) (kept : request ≠ .freeCpu (some h))
    : (first.serve ext answer.perPayload request).1 = (second.serve ext answer.perPayload request).1
      ∧ Alike own h (first.serve ext answer.perPayload request).2
          (second.serve ext answer.perPayload request).2 := by
  have separate := (Tree.Always.run (request.call_confined ext alike.separate registers)
    answer.perPayload first.env).1
  have served
      : (first.serve ext answer.perPayload request).1
          = (second.serve ext answer.perPayload request).1
        ∧ (∃ object,
            (first.serve ext answer.perPayload request).2.world.object? (some h) = some object
            ∧ (second.serve ext answer.perPayload request).2.world.object? (some h) = some object)
        ∧ ∀ payload,
            own h payload
            → (first.serve ext answer.perPayload request).2.env payload
              = (second.serve ext answer.perPayload request).2.env payload := by
    cases request with
    | allocateCpu spec fn => cases for_h
    | freeCpu i => exact absurd (congrArg Request.freeCpu for_h) kept
    | entry i point =>
        obtain rfl : i = some h := for_h
        have keeps (object : C χ) (holds : object.Holds (own h))
            : (point.body ext).Ensures object (fun call => own h call.payload) (fun _ _ => True) :=
          (point.body_holds ext holds fun read write payload is =>
            registers h payload ⟨read, write, by rw [is]⟩).mono fun _ _ _ => trivial
        have on_object := alike.fromHandle answer keeps 0 toInt .status
        rw [← point.function_eq ext (some h)] at on_object
        exact on_object
    | cpuCycles i =>
        obtain rfl : i = some h := for_h
        refine alike.fromHandle answer (fun object _ => ?_) 0 toUInt64 .value
        trivial
    | cpuPc i =>
        obtain rfl : i = some h := for_h
        refine alike.fromHandle answer (fun object _ => ?_) 0 some .value
        unfold C.readRegister
        simp only [Program.ensures_bind, Program.ensures_get]
        split
        · trivial
        · trivial
  exact ⟨served.1, separate, served.2.1, served.2.2⟩

/-- All calls for the CPU return the same in both processes, of which the second one gets no other
calls; by induction on the calls.
-/
theorem Alike.serveAll (ext : Pydrofoil χ) (answer : Environment ω)
    (alike : Alike own h first second) {requests : List Request}
    (registers
      : ∀ request ∈ requests, ∀ i payload, request.Registers i payload → own i payload)
    (apart : ∀ i payload, own i payload → own h payload → i = h)
    (kept : Request.freeCpu (some h) ∉ requests)
    : let all := first.serveAll ext answer.perPayload requests
      let alone := second.serveAll ext answer.perPayload
        (requests.filter (fun request => request.handle? = some h))
      all.1.filter (fun entry => entry.1.handle? = some h) = alone.1
      ∧ Alike own h all.2 alone.2 := by
  induction requests generalizing first second with
  | nil => exact ⟨rfl, alike⟩
  | cons request rest ih =>
      obtain ⟨mine, others⟩ := List.forall_mem_cons.mp registers
      have different : request ≠ .freeCpu (some h) := by
        rintro rfl
        exact kept List.mem_cons_self
      have later : Request.freeCpu (some h) ∉ rest :=
        fun member => kept (List.mem_cons_of_mem _ member)
      by_cases for_h : request.handle? = some h
      · obtain ⟨response, next⟩ := alike.serve_own ext answer mine for_h different
        obtain ⟨responses, last⟩ := ih next others later
        rw [List.filter_cons_of_pos (by simpa using for_h), serveAll_cons, serveAll_cons]
        dsimp only
        rw [List.filter_cons_of_pos (by simpa using for_h), responses, response]
        exact ⟨rfl, last⟩
      · obtain ⟨responses, last⟩ :=
          ih (alike.serve_other ext answer mine apart for_h) others later
        rw [List.filter_cons_of_neg (by simpa using for_h), serveAll_cons]
        dsimp only
        rw [List.filter_cons_of_neg (by simpa using for_h)]
        exact ⟨responses, last⟩

/-- Calls that register their own payloads keep the CPUs separate, by induction on the calls. -/
theorem serveAll_separate (ext : Pydrofoil χ) (answer : Environment (Pointer → ω))
    {process : Process χ (Pointer → ω)} (separate : process.world.Separate own)
    {requests : List Request}
    (registers
      : ∀ request ∈ requests, ∀ i payload, request.Registers i payload → own i payload)
    : (process.serveAll ext answer requests).2.world.Separate own := by
  induction requests generalizing process with
  | nil => exact separate
  | cons request rest ih =>
      obtain ⟨mine, others⟩ := List.forall_mem_cons.mp registers
      exact ih (Tree.Always.run (request.call_confined ext separate mine) answer process.env).1 others

end Process

/-- CPUs of one process are isolated, with registered functions that keep a state for each payload
and no payload that is registered for two CPUs: from any state that calls have reached, whatever is
allocated, freed and called for the others in between, a CPU that is not freed answers its own calls
as it does in a process of its own, and leaves its object and the states of its payloads as there.
-/
theorem cpus_isolated (ext : Pydrofoil χ) (answer : Environment ω) (env : Pointer → ω)
    (before after : List Request) (h : Handle) (object : C χ)
    (live
      : (({ env } : Process χ (Pointer → ω)).serveAll ext answer.perPayload before).2.world.object?
          (some h)
        = some object)
    (apart
      : ∀ i payload,
          (∃ request ∈ before ++ after, request.Registers i payload)
          → (∃ request ∈ before ++ after, request.Registers h payload)
          → i = h)
    (kept : Request.freeCpu (some h) ∉ after)
    : let start := (({ env } : Process χ (Pointer → ω)).serveAll ext answer.perPayload before).2
      let all := start.serveAll ext answer.perPayload after
      let alone := ({ start with world := { objects := [(h, object)] } }).serveAll ext
        answer.perPayload (after.filter (fun request => request.handle? = some h))
      all.1.filter (fun entry => entry.1.handle? = some h) = alone.1
      ∧ all.2.world.object? (some h) = alone.2.world.object? (some h)
      ∧ ∀ payload,
          (∃ request ∈ before ++ after, request.Registers h payload)
          → all.2.env payload = alone.2.env payload := by
  intro start all alone
  have registers {part : List Request} (sub : part ⊆ before ++ after)
      : ∀ request ∈ part,
          ∀ i payload,
            request.Registers i payload
            → ∃ other ∈ before ++ after, other.Registers i payload :=
    fun request member i payload does => ⟨request, sub member, does⟩
  have separate : start.world.Separate
      (fun i payload => ∃ request ∈ before ++ after, request.Registers i payload) :=
    Process.serveAll_separate ext _ (fun entry member => absurd member List.not_mem_nil)
      (registers (List.subset_append_left ..))
  have found : ({ objects := [(h, object)] } : World χ).object? (some h) = some object :=
    List.lookup_cons_self
  have alike : Process.Alike (fun i payload => ∃ request ∈ before ++ after, request.Registers i payload)
      h start { start with world := { objects := [(h, object)] } } :=
    ⟨separate, ⟨object, live, found⟩, fun _ _ => rfl⟩
  obtain ⟨responses, last⟩ :=
    alike.serveAll ext answer (registers (List.subset_append_right ..)) apart kept
  obtain ⟨final, here, there⟩ := last.object
  exact ⟨responses, here.trans there.symm, last.env⟩

/-- A CPU that stores how many steps it has made. -/
def tickingCpu : Pydrofoil (BitVec 64) where
  create _ _ _ := .ret (some 0)
  callbacks := true
  step ticks := .ask (.write 0x10000000 ticks) (fun written => .ret (written, ticks + 1))
  readRegister _ ticks := some ticks
  writeRegister _ value _ := (true, value)
  setVerbosity _ ticks := (true, ticks)

/-- Functions that keep the word that was written last. -/
def lastWord : Environment (BitVec 64)
  | word, .read .. => ((0, word), word)
  | _, .write _ _ _ _ value _ => (0, value)

/-- Two CPUs with a payload each. -/
def pairRequests : List Request :=
  [
    .allocateCpu (some "rv64") none, .allocateCpu (some "rv64") none,
    .entry (some 1) (.setRamReadWriteCallback 1 2 10),
    .entry (some 2) (.setRamReadWriteCallback 1 2 20)
  ]

/-- The first one makes three steps, while the second one makes five and is freed. -/
def interleavedRequests : List Request :=
  [
    .entry (some 1) (.simulate 2), .entry (some 2) (.simulate 5), .freeCpu (some 2),
    .entry (some 1) (.simulate 1), .cpuCycles (some 1)
  ]

/-- The process with the two CPUs. -/
def pairProcess : Process (BitVec 64) (Pointer → BitVec 64) :=
  (Process.serveAll tickingCpu lastWord.perPayload pairRequests { env := fun _ => 7 }).2

/-- The object of the first one. -/
def firstObject : C (BitVec 64) :=
  {
    rv64 := true, arg := none, callbacks := some 10, read := some 1, write := some 2
    handle := some 1, cpu := some { state := 0, payload := some 10, generation := 1 }
  }

/-- Each of the payloads is registered for one of the CPUs. -/
theorem pairRequests_registers {i : Handle} {payload : Pointer}
    (does : ∃ request ∈ pairRequests ++ interleavedRequests, request.Registers i payload)
    : (i = 1 ∧ payload = 10) ∨ (i = 2 ∧ payload = 20) := by
  obtain ⟨request, member, read, write, rfl⟩ := does
  have both
      : (i = 1 ∧ read = 1 ∧ write = 2 ∧ payload = 10)
        ∨ (i = 2 ∧ read = 1 ∧ write = 2 ∧ payload = 20) := by
    simpa [pairRequests, interleavedRequests] using member
  exact both.imp (fun all => ⟨all.1, all.2.2.2⟩) (fun all => ⟨all.1, all.2.2.2⟩)

/-- Witness: the first CPU is not disturbed. -/
theorem cpus_isolated_tickingCpu
    : let all := pairProcess.serveAll tickingCpu lastWord.perPayload interleavedRequests
      all.1.filter (fun entry => entry.1.handle? = some 1)
        = [
            (.entry (some 1) (.simulate 2), .status 2), (.entry (some 1) (.simulate 1), .status 1),
            (.cpuCycles (some 1), .value 3)
          ]
      ∧ all.2.env 10 = 2 := by
  have live : pairProcess.world.object? (some 1) = some firstObject := rfl
  have apart (i : Handle) (payload : Pointer)
      (first : ∃ request ∈ pairRequests ++ interleavedRequests, request.Registers i payload)
      (second : ∃ request ∈ pairRequests ++ interleavedRequests, request.Registers 1 payload)
      : i = 1 := by
    rcases pairRequests_registers first with ⟨is_first, _⟩ | ⟨_, same⟩
    · exact is_first
    · rcases pairRequests_registers second with ⟨_, other⟩ | ⟨wrong, _⟩
      · exact absurd (same.symm.trans other) (by decide)
      · exact absurd wrong (by decide)
  obtain ⟨responses, _, states⟩ :=
    cpus_isolated tickingCpu lastWord (fun _ => 7) pairRequests interleavedRequests 1 firstObject live
      apart (by decide)
  refine ⟨responses.trans (by decide +kernel), (states 10 ?_).trans (by decide +kernel)⟩
  exact ⟨_, List.mem_append_left _ (.tail _ (.tail _ (.head _))), 1, 2, rfl⟩

end VcmlPydrofoil
