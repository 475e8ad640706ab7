import VcmlPydrofoil.Plugin.Objects

/-! The installation of callbacks. It changes the object before the new CPU is built, so it is all
or nothing exactly when the CPU gets built or the object was the same before.
-/

namespace VcmlPydrofoil

open Interaction (Tree Program)

variable {χ ω α : Type} (ext : Pydrofoil χ) (answer : Environment ω)

/-- The arguments of one installation. -/
structure Registration where
  read : Pointer
  write : Pointer
  payload : Pointer
  deriving DecidableEq

/-- The entry point of an installation. -/
def Registration.entry (registration : Registration) : EntryPoint :=
  .setRamReadWriteCallback registration.read registration.write registration.payload

namespace C

variable (object final : C χ) (env : ω) (registration : Registration)

/-- The object after an installation, whether or not it raises. -/
def afterInstallation : C χ :=
  ((registration.entry.body ext).runIn answer object env).1.2

/-- All three are installed, and a new CPU object is built with them. -/
structure Installed : Prop where
  read : final.read = some registration.read
  write : final.write = some registration.write
  callbacks : final.callbacks = some registration.payload
  cpu
    : ∃ cpu,
        final.cpu = some cpu
        ∧ cpu.payload = some registration.payload
        ∧ cpu.generation = (object.cpu.map (fun old => old.generation + 1)).getD 0

/-- An installation is all or nothing. -/
def AllOrNothing : Prop :=
  object.Installed (object.afterInstallation ext answer env registration) registration
  ∨ object.afterInstallation ext answer env registration = object

/-- The object as it is when the constructor of the new CPU runs. -/
def registered : C χ :=
  {
    object with
    read := some registration.read, write := some registration.write, mem := 0
    callbacks := some registration.payload
  }

/-- Neither `Callbacks` nor the constructor of the new CPU raises. -/
def Builds : Prop :=
  ext.callbacks = true
  ∧ ((object.registered registration).construct answer ext env).1.isSome = true

/-- The object is the same as far as the installation gets: up to `Callbacks`, or up to the end of
the constructor, which may have filled the buffer.
-/
def Repeats : Prop :=
  object.read = some registration.read
  ∧ object.write = some registration.write
  ∧ if ext.callbacks then
      object.callbacks = some registration.payload
      ∧ object.mem = ((object.registered registration).construct answer ext env).2.1
    else
      object.mem = 0

/-- The object after an installation. -/
theorem afterInstallation_eq
    : object.afterInstallation ext answer env registration
      = if ext.callbacks then
          ((C.reset ext).runIn answer (object.registered registration) env).1.2
        else
          {
            object with
            read := some registration.read, write := some registration.write, mem := 0
          } := by
  unfold afterInstallation Registration.entry EntryPoint.body
  rw [Program.runIn_bind, C.setCallbacks_runIn]
  cases ext.callbacks with
  | false => rfl
  | true =>
      simp only [↓reduceIte]
      rw [Program.runIn_returning]
      rfl

variable {ext answer object env registration}

/-- When the CPU gets built, everything is installed. -/
theorem Builds.installed (builds : object.Builds ext answer env registration)
    : object.Installed (object.afterInstallation ext answer env registration) registration := by
  obtain ⟨callbacks, constructed⟩ := builds
  obtain ⟨state, made⟩ := Option.isSome_iff_exists.mp constructed
  rw [afterInstallation_eq, if_pos callbacks, C.reset_runIn, made]
  exact ⟨rfl, rfl, rfl, _, rfl, rfl, rfl⟩

/-- When the CPU does not get built, the object keeps its CPU object. -/
theorem afterInstallation_unbuilt (unbuilt : ¬ object.Builds ext answer env registration)
    : object.afterInstallation ext answer env registration
      = {
          object with
          read := some registration.read, write := some registration.write
          mem := if ext.callbacks then
              ((object.registered registration).construct answer ext env).2.1
            else
              0
          callbacks := if ext.callbacks then some registration.payload else object.callbacks
        } := by
  rw [afterInstallation_eq]
  cases callbacks : ext.callbacks with
  | false => rfl
  | true =>
      have raised : ((object.registered registration).construct answer ext env).1 = none := by
        cases made : ((object.registered registration).construct answer ext env).1 with
        | none => rfl
        | some state => exact absurd ⟨callbacks, by rw [made]; rfl⟩ unbuilt
      simp only [↓reduceIte]
      rw [C.reset_runIn, raised]
      rfl

/-- Without a new CPU object, nothing counts as installed. -/
theorem not_installed (unbuilt : ¬ object.Builds ext answer env registration)
    : ¬ object.Installed (object.afterInstallation ext answer env registration) registration := by
  intro installed
  obtain ⟨cpu, here, _, fresh⟩ := installed.cpu
  rw [afterInstallation_unbuilt unbuilt] at here
  have kept : object.cpu = some cpu := here
  rw [kept] at fresh
  simp at fresh

/-- An installation that does not build the CPU leaves the object alone exactly when the object
was the same before.
-/
theorem afterInstallation_same_iff (unbuilt : ¬ object.Builds ext answer env registration)
    : object.afterInstallation ext answer env registration = object
      ↔ object.Repeats ext answer env registration := by
  rw [afterInstallation_unbuilt unbuilt]
  obtain ⟨rv64, arg, callbacks, read, write, mem, handle, cpu, steps⟩ := object
  unfold Repeats
  simp only [C.mk.injEq, true_and, and_true]
  cases ext.callbacks with
  | false =>
      simp only [Bool.false_eq_true, ↓reduceIte]
      constructor
      · rintro ⟨_, one, two, three⟩
        exact ⟨one.symm, two.symm, three.symm⟩
      · rintro ⟨rfl, rfl, rfl⟩
        exact ⟨trivial, rfl, rfl, rfl⟩
  | true =>
      simp only [↓reduceIte]
      constructor
      · rintro ⟨one, two, three, four⟩
        exact ⟨two.symm, three.symm, one.symm, four.symm⟩
      · rintro ⟨one, two, three, four⟩
        exact ⟨three.symm, one.symm, two.symm, four.symm⟩

/-- An installation is all or nothing exactly when it builds the CPU or repeats what is there. -/
theorem allOrNothing_iff (object : C χ) (env : ω) (registration : Registration)
    : object.AllOrNothing ext answer env registration
      ↔ object.Builds ext answer env registration
        ∨ object.Repeats ext answer env registration := by
  by_cases builds : object.Builds ext answer env registration
  · exact iff_of_true (Or.inl builds.installed) (Or.inl builds)
  · unfold AllOrNothing
    rw [afterInstallation_same_iff builds]
    simp [not_installed builds, builds]

end C

-----------------------------------------------------------------------------------------
-- Accesses of the live CPU
-----------------------------------------------------------------------------------------

/-- The function and the payload of a call were registered by one installation. -/
def Paired (registrations : List Registration) : CCallback → Prop
  | .read function _ _ _ _ payload =>
      ∃ registration ∈ registrations,
        registration.read = function ∧ registration.payload = payload
  | .write function _ _ _ _ payload =>
      ∃ registration ∈ registrations,
        registration.write = function ∧ registration.payload = payload

/-- Functions, payload and CPU of the object come from one installation. -/
structure C.Coherent (registrations : List Registration) (object : C χ) : Prop where
  live : ∃ cpu, object.cpu = some cpu ∧ cpu.payload = object.callbacks
  registered
    : ∀ payload,
        object.callbacks = some payload
        → ∃ registration ∈ registrations,
            object.read = some registration.read
            ∧ object.write = some registration.write
            ∧ payload = registration.payload

variable {ext answer} {registrations : List Registration} {object : C χ} {env : ω}

/-- The registered functions and the payload of the CPU are a pair. -/
theorem C.Coherent.paired (coherent : object.Coherent registrations) {cpu : Cpu χ}
    (built : object.cpu = some cpu) {call : CCallback} (calls : object.Calls cpu.payload call)
    : Paired registrations call := by
  obtain ⟨current, same, tied⟩ := coherent.live
  obtain rfl : current = cpu := Option.some.inj (same.symm.trans built)
  rw [tied] at calls
  cases call with
  | read function _ _ _ _ passed =>
      obtain ⟨registration, member, read, _, payload⟩ := coherent.registered passed calls.2
      exact ⟨registration, member, Option.some.inj (read.symm.trans calls.1), payload.symm⟩
  | write function _ _ _ _ passed =>
      obtain ⟨registration, member, _, write, payload⟩ := coherent.registered passed calls.2
      exact ⟨registration, member, Option.some.inj (write.symm.trans calls.1), payload.symm⟩

/-- All accesses of a simulation are paired, and it leaves the object coherent. -/
theorem C.Coherent.simulate (coherent : object.Coherent registrations) (steps : BitVec 64)
    : ((EntryPoint.simulate steps).body ext).Ensures object (Paired registrations)
        (fun _ next => next.Coherent registrations) := by
  have kept (state : C χ) (holds : state.Coherent registrations)
      : (C.step ext).Ensures state (Paired registrations)
          (fun _ next => next.Coherent registrations) := by
    obtain ⟨cpu, built, tied⟩ := holds.live
    refine Tree.Always.mono (C.step_ensures state built) ?_ ?_
    · exact fun call calls => holds.paired built calls
    · rintro ⟨result, next⟩ ⟨last, word, rfl⟩
      exact ⟨⟨_, rfl, tied⟩, holds.registered⟩
  unfold EntryPoint.body
  rw [Program.ensures_bind]
  refine (Program.Ensures.times kept steps.toNat object coherent).mono ?_
  intro result next still
  cases result with
  | some value => exact still
  | none => exact still

/-- A reset leaves the object coherent. -/
theorem C.Coherent.reset (coherent : object.Coherent registrations)
    : ((C.reset ext).runIn answer object env).1.2.Coherent registrations := by
  rw [C.reset_runIn]
  cases (C.construct answer ext object env).1 with
  | none => exact ⟨coherent.live, coherent.registered⟩
  | some state => exact ⟨⟨_, rfl, rfl⟩, coherent.registered⟩

/-- A method of the CPU object leaves the object coherent. -/
theorem C.Coherent.onCpu (coherent : object.Coherent registrations) (method : χ → Bool × χ)
    : ((C.onCpu method).runIn answer object env).1.2.Coherent registrations := by
  obtain ⟨cpu, built, tied⟩ := coherent.live
  rw [C.onCpu_runIn answer env object built]
  exact ⟨⟨_, rfl, tied⟩, coherent.registered⟩

/-- More registrations. -/
theorem C.Coherent.mono (coherent : object.Coherent registrations) {more : List Registration}
    (subset : registrations ⊆ more)
    : object.Coherent more where
  live := coherent.live
  registered := by
    intro payload callbacks
    obtain ⟨registration, member, rest⟩ := coherent.registered payload callbacks
    exact ⟨registration, subset member, rest⟩

/-- An installation that is all or nothing leaves the object coherent. -/
theorem C.Coherent.install (coherent : object.Coherent registrations)
    {registration : Registration}
    (safe
      : object.Builds ext answer env registration ∨ object.Repeats ext answer env registration)
    : (object.afterInstallation ext answer env registration).Coherent
        (registrations ++ [registration]) := by
  by_cases builds : object.Builds ext answer env registration
  · have installed := builds.installed
    obtain ⟨cpu, built, tied, _⟩ := installed.cpu
    refine ⟨⟨cpu, built, tied.trans installed.callbacks.symm⟩, fun payload callbacks => ?_⟩
    refine ⟨registration, by simp, installed.read, installed.write, ?_⟩
    exact Option.some.inj (callbacks.symm.trans installed.callbacks)
  · have repeats := safe.resolve_left builds
    rw [(C.afterInstallation_same_iff builds).mpr repeats]
    exact coherent.mono (List.subset_append_left _ _)

-----------------------------------------------------------------------------------------
-- Runs
-----------------------------------------------------------------------------------------

/-- The world and the environment between two calls, with the installations tried so far. -/
structure InstallSession (χ ω : Type) where
  world : World χ
  env : ω
  registrations : List Registration := []

namespace InstallSession

variable (ext answer)

/-- One more call of an entry point. -/
def next (i : Option Handle) (session : InstallSession χ ω) (entry : EntryPoint)
    : InstallSession χ ω :=
  let out := entry.call ext answer i session.world session.env
  {
    world := out.2.1
    env := out.2.2
    registrations := match entry with
      | .setRamReadWriteCallback read write payload =>
          session.registrations ++ [{ read, write, payload }]
      | _ => session.registrations
  }

/-- A call that is an installation builds the CPU or repeats what is there. -/
def Safe (i : Option Handle) (session : InstallSession χ ω) : EntryPoint → Prop
  | .setRamReadWriteCallback read write payload =>
      ∀ object,
        session.world.object? i = some object
        → object.Builds ext answer session.env { read, write, payload }
          ∨ object.Repeats ext answer session.env { read, write, payload }
  | _ => True

/-- All calls of a run are safe. -/
def SafeCalls (i : Option Handle) (session : InstallSession χ ω) : List EntryPoint → Prop
  | [] => True
  | entry :: rest => session.Safe ext answer i entry ∧ (session.next ext answer i entry).SafeCalls i rest

variable {ext answer} {i : Option Handle} {session : InstallSession χ ω}

/-- The object behind the handle is coherent. -/
def Coherent (i : Option Handle) (session : InstallSession χ ω) : Prop :=
  ∃ object, session.world.object? i = some object ∧ object.Coherent session.registrations

/-- A safe call keeps the object coherent. -/
theorem Coherent.next (coherent : session.Coherent i) {entry : EntryPoint}
    (safe : session.Safe ext answer i entry)
    : (session.next ext answer i entry).Coherent i := by
  obtain ⟨object, live, holds⟩ := coherent
  unfold InstallSession.next
  rw [entry.call_eq ext answer live]
  refine ⟨_, World.object?_update live _, ?_⟩
  cases entry with
  | simulate steps => exact (holds.simulate steps).runIn answer session.env
  | reset =>
      unfold EntryPoint.body
      rw [Program.runIn_returning]
      exact holds.reset
  | setRamReadWriteCallback read write payload =>
      exact holds.install (safe object live)
  | setVerbosity verbose =>
      unfold EntryPoint.body
      rw [Program.runIn_returning]
      exact holds.onCpu _
  | setPc value =>
      unfold EntryPoint.body
      rw [Program.runIn_returning]
      exact holds.onCpu _

/-- Safe calls keep the object coherent, by induction on their list. -/
theorem Coherent.calls (coherent : session.Coherent i) {entries : List EntryPoint}
    (safe : session.SafeCalls ext answer i entries)
    : (entries.foldl (InstallSession.next ext answer i) session).Coherent i := by
  induction entries generalizing session with
  | nil => exact coherent
  | cons entry rest ih => exact ih (coherent.next safe.1) safe.2

end InstallSession

/-- Every access of the live CPU in a simulation calls a function with the payload that was
registered together with it, whatever the functions reply.
-/
def AccessesPaired (ext : Pydrofoil χ) (i : Option Handle) (session : InstallSession χ ω) : Prop :=
  ∃ object,
    session.world.object? i = some object
    ∧ ∀ steps,
        ((EntryPoint.simulate steps).body ext).Ensures object (Paired session.registrations)
          (fun _ _ => True)

/-- An installation is all or nothing exactly when it builds the CPU or repeats what is there; and
after any run of an allocated CPU whose installations all do, every access is paired.
-/
theorem installation_allOrNothing (i : Option Handle) (world : World χ) (object : C χ)
    (live : world.object? i = some object) (built : object.cpu.isSome)
    (unregistered : object.callbacks = none ∧ object.cpu.bind Cpu.payload = none) (env : ω)
    (entries : List EntryPoint)
    (safe : InstallSession.SafeCalls ext answer i { world, env } entries)
    : (∀ (object : C χ) (env : ω) (registration : Registration),
        object.AllOrNothing ext answer env registration
        ↔ object.Builds ext answer env registration
          ∨ object.Repeats ext answer env registration)
      ∧ AccessesPaired ext i (entries.foldl (InstallSession.next ext answer i) { world, env }) := by
  refine ⟨fun object env registration => C.allOrNothing_iff object env registration, ?_⟩
  obtain ⟨cpu, here⟩ := Option.isSome_iff_exists.mp built
  have start : InstallSession.Coherent i { world, env } := by
    refine ⟨object, live, ⟨cpu, here, ?_⟩, fun payload callbacks => ?_⟩
    · rw [unregistered.1, ← unregistered.2, here]
      rfl
    · rw [unregistered.1] at callbacks
      nomatch callbacks
  obtain ⟨reached, there, coherent⟩ := start.calls safe
  exact ⟨reached, there, fun steps => (coherent.simulate steps).mono fun _ _ _ => trivial⟩

/-- CPUs that read one word in every step, and in their constructor if they have callbacks; the
constructor raises when that read does.
-/
def readingCpu : Pydrofoil Unit where
  create _ _ callbacks :=
    if callbacks then .ask (.read 0) (fun word => .ret (word.map fun _ => ())) else .ret (some ())
  callbacks := true
  step _ := .ask (.read 0) (fun word => .ret (word.isSome, ()))
  readRegister _ _ := some 0
  writeRegister _ _ _ := (true, ())
  setVerbosity _ _ := (true, ())

/-- Functions of which only number 21 fails. -/
def failingFunction : Environment Unit
  | _, .read function _ _ _ _ _ => ((if function = 21 then 1 else 0, 0), ())
  | _, .write .. => (0, ())

/-- One allocated CPU without callbacks. -/
def readingWorld : World Unit :=
  {
    objects := [(1, {
      rv64 := true, arg := none, handle := some 1
      cpu := some { state := (), payload := none, generation := 0 }
    })]
    nextHandle := 2
  }

theorem installation_allOrNothing_readingCpu
    : InstallSession.SafeCalls readingCpu failingFunction (some 1) { world := readingWorld, env := () }
          [.setRamReadWriteCallback 11 12 13, .simulate 1, .setRamReadWriteCallback 31 32 33]
      ∧ AccessesPaired readingCpu (some 1)
          ([EntryPoint.setRamReadWriteCallback 11 12 13, .simulate 1,
            .setRamReadWriteCallback 31 32 33].foldl
            (InstallSession.next readingCpu failingFunction (some 1))
            { world := readingWorld, env := () }) := by
  have safe
      : InstallSession.SafeCalls readingCpu failingFunction (some 1)
          { world := readingWorld, env := () }
          [.setRamReadWriteCallback 11 12 13, .simulate 1, .setRamReadWriteCallback 31 32 33] := by
    refine ⟨fun object live => ?_, trivial, fun object live => ?_, trivial⟩
    · obtain rfl := Option.some.inj live
      exact Or.inl ⟨rfl, rfl⟩
    · obtain rfl := Option.some.inj live
      exact Or.inl ⟨rfl, rfl⟩
  exact ⟨safe, (installation_allOrNothing (some 1) readingWorld _ rfl rfl ⟨rfl, rfl⟩ () _ safe).2⟩

/-- The object after an installation and another one whose constructor raises. -/
def mixedSession : InstallSession Unit Unit :=
  [EntryPoint.setRamReadWriteCallback 11 12 13, .setRamReadWriteCallback 21 22 23].foldl
    (InstallSession.next readingCpu failingFunction (some 1)) { world := readingWorld, env := () }

/-- The second installation leaves the object mixed, and the next step of the CPU calls the new
function with the old payload.
-/
theorem installation_mixes
    : (∃ object,
        mixedSession.world.object? (some 1) = some object
        ∧ object.read = some 21
        ∧ object.callbacks = some 23
        ∧ object.cpu.bind Cpu.payload = some 13)
      ∧ (∀ object,
          ([EntryPoint.setRamReadWriteCallback 11 12 13].foldl
              (InstallSession.next readingCpu failingFunction (some 1))
              { world := readingWorld, env := () }).world.object? (some 1) = some object
          → ¬ object.AllOrNothing readingCpu failingFunction () ⟨21, 22, 23⟩)
      ∧ ¬ AccessesPaired readingCpu (some 1) mixedSession := by
  refine ⟨⟨_, rfl, rfl, rfl, rfl⟩, ?_, ?_⟩
  · intro object live
    obtain rfl := Option.some.inj live
    rintro (installed | same)
    · obtain ⟨cpu, built, payload, _⟩ := installed.cpu
      obtain rfl := Option.some.inj built
      exact absurd payload (by decide)
    · have read := congrArg C.read same
      exact absurd read (by decide)
  · rintro ⟨object, live, paired⟩
    obtain rfl := Option.some.inj live
    have asked : Paired mixedSession.registrations (.read 21 (some 1) 0 8 0 13) := (paired 1).1
    obtain ⟨registration, member, function, payload⟩ := asked
    have tried : registration = ⟨11, 12, 13⟩ ∨ registration = ⟨21, 22, 23⟩ := by
      simpa [mixedSession, InstallSession.next] using member
    rcases tried with rfl | rfl
    · exact absurd function (by decide)
    · exact absurd payload (by decide)

end VcmlPydrofoil
