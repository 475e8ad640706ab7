import Mathlib.Logic.Function.Basic
import Mathlib.Logic.Relation
import Mathlib.Data.List.Basic
import Mathlib.Data.List.Nodup
import Mathlib.Data.List.Range

/-! A single server that answers the requests of any number of clients through a queue.
A client posts a request, notifies the server and waits for the reply to its own ticket.
The server sleeps only on an empty queue and answers one request at a time. Tickets are
numbered in posting order, so ticket `t` was posted by the client at position `t` of `posted`.
-/

namespace RequestServer

/-- Where a client stands between two requests. -/
inductive ClientPhase where
  | idle
  | posted (ticket : Nat)
  | waiting (ticket : Nat)

/-- The ticket a client still has to collect. -/
def ClientPhase.ticket? : ClientPhase → Option Nat
  | .idle => none
  | .posted ticket => some ticket
  | .waiting ticket => some ticket

/-- Where the server stands. A settled request has its reply, but the server has not
finished its handling.
-/
inductive ServerPhase where
  | awake
  | asleep
  | busy (ticket : Nat)
  | settled (ticket : Nat)
  deriving DecidableEq

/-- The ticket the server still has to answer. -/
def ServerPhase.working : ServerPhase → List Nat
  | .busy ticket => [ticket]
  | _ => []

/-- The channel and its history. -/
structure State (Client Reply : Type) where
  posted : List Client
  queue : List Nat
  client : Client → ClientPhase
  server : ServerPhase
  reply : Nat → Option Reply
  taken : List Nat
  settled : List Nat
  received : List (Client × Nat × Reply)
  abandoned : List Nat

/-- A notification wakes a sleeping server and is lost on any other. -/
def ServerPhase.notified : ServerPhase → ServerPhase
  | .asleep => .awake
  | phase => phase

/-- A channel that no client has used. -/
def State.initial {Client Reply : Type} : State Client Reply :=
  {
    posted := [], queue := [], client := fun _ => .idle, server := .awake
    reply := fun _ => none, taken := [], settled := [], received := [], abandoned := []
  }

variable {Client Reply : Type}

/-- One step of a client or of the server. A client abandons its ticket when it leaves the
wait without the reply.
-/
inductive Step [DecidableEq Client] : State Client Reply → State Client Reply → Prop
  | post (state : State Client Reply) (c : Client) (idle : state.client c = .idle)
    : Step state
        { state with
          posted := state.posted ++ [c]
          queue := state.queue ++ [state.posted.length]
          client := Function.update state.client c (.posted state.posted.length) }
  | notify (state : State Client Reply) (c : Client) (ticket : Nat)
    (posted : state.client c = .posted ticket)
    : Step state
        { state with
          client := Function.update state.client c (.waiting ticket)
          server := state.server.notified }
  | receive (state : State Client Reply) (c : Client) (ticket : Nat) (value : Reply)
    (waiting : state.client c = .waiting ticket) (replied : state.reply ticket = some value)
    : Step state
        { state with
          client := Function.update state.client c .idle
          received := state.received ++ [(c, ticket, value)] }
  | abandon (state : State Client Reply) (c : Client) (ticket : Nat)
    (waiting : state.client c = .waiting ticket)
    : Step state
        { state with
          client := Function.update state.client c .idle
          abandoned := state.abandoned ++ [ticket] }
  | sleep (state : State Client Reply) (awake : state.server = .awake) (empty : state.queue = [])
    : Step state { state with server := .asleep }
  | wake (state : State Client Reply) (asleep : state.server = .asleep)
    : Step state { state with server := .awake }
  | take (state : State Client Reply) (ticket : Nat) (rest : List Nat)
    (awake : state.server = .awake) (queued : state.queue = ticket :: rest)
    : Step state
        { state with
          queue := rest, server := .busy ticket, taken := state.taken ++ [ticket] }
  | settle (state : State Client Reply) (ticket : Nat) (value : Reply)
    (busy : state.server = .busy ticket)
    : Step state
        { state with
          reply := Function.update state.reply ticket (some value)
          server := .settled ticket
          settled := state.settled ++ [ticket] }
  | finish (state : State Client Reply) (ticket : Nat) (settled : state.server = .settled ticket)
    : Step state { state with server := .awake }

-----------------------------------------------------------------------------------------
-- The invariant of the channel
-----------------------------------------------------------------------------------------

/-- What holds in every reachable state: requests are taken in posting order and answered in
the order they are taken, a reply reaches the client that posted its ticket, and a sleeping
server with a non-empty queue has a notification coming.
-/
structure Invariant (state : State Client Reply) : Prop where
  order : state.taken ++ state.queue = List.range state.posted.length
  answers : state.settled ++ state.server.working = state.taken
  replied : ∀ ticket, (state.reply ticket).isSome ↔ ticket ∈ state.settled
  holder : ∀ c ticket, (state.client c).ticket? = some ticket → state.posted[ticket]? = some c
  held
    : ∀ c ticket,
        state.posted[ticket]? = some c
        → (state.client c).ticket? = some ticket
          ∨ (∃ value, (c, ticket, value) ∈ state.received)
          ∨ ticket ∈ state.abandoned
  received
    : ∀ c ticket value,
        (c, ticket, value) ∈ state.received
        → state.posted[ticket]? = some c ∧ state.reply ticket = some value
  left : ∀ ticket ∈ state.abandoned, ticket < state.posted.length
  collected : (state.received.map (fun entry => entry.2.1)).Nodup
  pending
    : ∀ c ticket,
        (state.client c).ticket? = some ticket
        → ticket ∉ state.received.map (fun entry => entry.2.1)
  awake : state.server = .asleep → state.queue ≠ [] → ∃ c ticket, state.client c = .posted ticket

namespace Invariant

variable {state : State Client Reply}

/-- Taken and queued tickets are distinct, since together they count up from zero. -/
theorem nodup (invariant : Invariant state) : (state.taken ++ state.queue).Nodup := by
  rw [invariant.order]
  exact List.nodup_range

/-- A ticket that the server works on has no reply yet. -/
theorem busy_unreplied (invariant : Invariant state) {ticket : Nat}
    (busy : state.server = .busy ticket)
    : state.reply ticket = none := by
  have distinct := (List.nodup_append.mp invariant.nodup).1
  have split := invariant.answers
  simp only [busy, ServerPhase.working] at split
  rw [← split, List.nodup_append] at distinct
  have absent : ticket ∉ state.settled := fun member =>
    distinct.2.2 ticket member ticket (by simp) rfl
  cases found : state.reply ticket with
  | none => rfl
  | some value => exact absurd ((invariant.replied ticket).mp (by simp [found])) absent

/-- A settled ticket was taken from the queue. -/
theorem settled_taken (invariant : Invariant state) {ticket : Nat}
    (member : ticket ∈ state.settled)
    : ticket ∈ state.taken := by
  rw [← invariant.answers]
  exact List.mem_append_left _ member

/-- A queued ticket has no reply yet. -/
theorem queued_unreplied (invariant : Invariant state) {ticket : Nat}
    (queued : ticket ∈ state.queue)
    : state.reply ticket = none := by
  cases found : state.reply ticket with
  | none => rfl
  | some value =>
      have taken := invariant.settled_taken ((invariant.replied ticket).mp (by simp [found]))
      exact absurd rfl ((List.nodup_append.mp invariant.nodup).2.2 ticket taken ticket queued)

/-- A posted ticket is queued, being answered, or answered. -/
theorem posted_cases (invariant : Invariant state) {ticket : Nat}
    (posted : ticket < state.posted.length)
    : ticket ∈ state.queue ∨ state.server = .busy ticket ∨ ticket ∈ state.settled := by
  have member : ticket ∈ state.taken ++ state.queue := by
    rw [invariant.order]
    exact List.mem_range.mpr posted
  rcases List.mem_append.mp member with taken | queued
  · rw [← invariant.answers] at taken
    rcases List.mem_append.mp taken with settled | working
    · exact Or.inr (Or.inr settled)
    · cases phase : state.server <;> simp [phase, ServerPhase.working] at working
      subst working
      exact Or.inr (Or.inl rfl)
  · exact Or.inl queued

/-- Every ticket in use was posted. -/
theorem queue_lt (invariant : Invariant state) {ticket : Nat}
    (member : ticket ∈ state.taken ++ state.queue)
    : ticket < state.posted.length := by
  rw [invariant.order] at member
  exact List.mem_range.mp member

/-- A ticket beyond the posted ones has no reply. -/
theorem fresh (invariant : Invariant state) {ticket : Nat}
    (beyond : state.posted.length ≤ ticket)
    : state.reply ticket = none := by
  cases found : state.reply ticket with
  | none => rfl
  | some value =>
      have taken := invariant.settled_taken ((invariant.replied ticket).mp (by simp [found]))
      have := invariant.queue_lt (List.mem_append_left _ taken)
      omega

/-- An unanswered ticket that nobody abandoned is still held by the client that posted it. -/
theorem unanswered_held (invariant : Invariant state) {ticket : Nat} {c : Client}
    (posted : state.posted[ticket]? = some c) (unanswered : state.reply ticket = none)
    (kept : ticket ∉ state.abandoned)
    : (state.client c).ticket? = some ticket := by
  rcases invariant.held c ticket posted with held | ⟨value, member⟩ | gone
  · exact held
  · have := (invariant.received c ticket value member).2
    simp [unanswered] at this
  · exact absurd gone kept

/-- When only one client ever has a ticket and only taken tickets are abandoned, at most one
request is queued. Witness: every queued ticket is the one that this client still holds.
-/
theorem queue_length_le_one (invariant : Invariant state) (c : Client)
    (single : ∀ other ∈ state.posted, other = c)
    (kept : ∀ ticket ∈ state.abandoned, ticket ∈ state.taken)
    : state.queue.length ≤ 1 := by
  have held : ∀ ticket ∈ state.queue, (state.client c).ticket? = some ticket := by
    intro ticket queued
    have posted := invariant.queue_lt (List.mem_append_right _ queued)
    have owner := single _ (List.getElem_mem posted)
    refine invariant.unanswered_held (by rw [List.getElem?_eq_getElem posted, owner])
      (invariant.queued_unreplied queued) (fun gone => ?_)
    exact (List.nodup_append.mp invariant.nodup).2.2 ticket (kept ticket gone) ticket queued rfl
  have distinct := (List.nodup_append.mp invariant.nodup).2.1
  match queue : state.queue with
  | [] => simp
  | [_] => simp
  | first :: second :: rest =>
      rw [queue] at held distinct
      have same := (held first (by simp)).symm.trans (held second (by simp))
      simp only [Option.some.injEq] at same
      simp [same] at distinct

/-- An unused channel satisfies the invariant. -/
theorem initial : Invariant (State.initial : State Client Reply) := by
  constructor <;> simp [State.initial, ServerPhase.working, ClientPhase.ticket?]

end Invariant

-----------------------------------------------------------------------------------------
-- Every step keeps the invariant
-----------------------------------------------------------------------------------------

@[simp] theorem ServerPhase.working_notified (phase : ServerPhase)
    : phase.notified.working = phase.working := by
  cases phase <;> rfl

@[simp] theorem ServerPhase.notified_ne_asleep (phase : ServerPhase)
    : phase.notified ≠ .asleep := by
  cases phase <;> simp [notified]

section Steps

variable {state : State Client Reply}

/-- Two clients never hold one ticket. -/
theorem Invariant.holder_unique (invariant : Invariant state) {first second : Client}
    {ticket : Nat} (one : (state.client first).ticket? = some ticket)
    (two : (state.client second).ticket? = some ticket)
    : first = second :=
  Option.some.inj
    ((invariant.holder first ticket one).symm.trans (invariant.holder second ticket two))

/-- The server may fall asleep on an empty queue, or wake at any time. -/
theorem Invariant.setServer (invariant : Invariant state) {server : ServerPhase}
    (working : server.working = state.server.working)
    (awake : server = .asleep → state.queue ≠ [] → ∃ c ticket, state.client c = .posted ticket)
    : Invariant { state with server := server } :=
  { invariant with
    answers := by simpa only [working] using invariant.answers
    awake := awake }

/-- Taking the oldest request makes the server busy with it. -/
theorem Invariant.take (invariant : Invariant state) {ticket : Nat} {rest : List Nat}
    (awake : state.server = .awake) (queued : state.queue = ticket :: rest)
    : Invariant
        { state with
          queue := rest, server := .busy ticket, taken := state.taken ++ [ticket] } :=
  { invariant with
    order := by simpa [queued] using invariant.order
    answers := by
      have answers := invariant.answers
      simp only [awake, ServerPhase.working, List.append_nil] at answers
      simp [answers, ServerPhase.working]
    awake := fun asleep => by simp at asleep }

/-- Settling the busy ticket gives it its only reply. -/
theorem Invariant.settle (invariant : Invariant state) {ticket : Nat} (value : Reply)
    (busy : state.server = .busy ticket)
    : Invariant
        { state with
          reply := Function.update state.reply ticket (some value)
          server := .settled ticket
          settled := state.settled ++ [ticket] } :=
  { invariant with
    answers := by simpa [busy, ServerPhase.working] using invariant.answers
    replied := by
      intro found
      by_cases same : found = ticket
      · simp [same]
      · simpa [same] using invariant.replied found
    received := by
      intro owner found old member
      obtain ⟨posted, replied⟩ := invariant.received owner found old member
      have different : found ≠ ticket := by
        rintro rfl
        simp [invariant.busy_unreplied busy] at replied
      exact ⟨posted, by simpa [different] using replied⟩
    awake := fun asleep => by simp at asleep }

variable [DecidableEq Client]

/-- Only the client that moved changes its ticket. -/
theorem ticket?_update (clients : Client → ClientPhase) (c other : Client)
    (phase : ClientPhase)
    : (Function.update clients c phase other).ticket?
      = if other = c then phase.ticket? else (clients other).ticket? := by
  by_cases same : other = c
  · subst other
    simp
  · simp [same]

/-- Posting appends a fresh ticket, held by its client and awaiting its notification. -/
theorem Invariant.post (invariant : Invariant state) {c : Client}
    (idle : state.client c = .idle)
    : Invariant
        { state with
          posted := state.posted ++ [c]
          queue := state.queue ++ [state.posted.length]
          client := Function.update state.client c (.posted state.posted.length) } := by
  have older {ticket : Nat} {owner : Client} (posted : state.posted[ticket]? = some owner)
      : ticket < state.posted.length ∧ (state.posted ++ [c])[ticket]? = some owner := by
    have bound := (List.getElem?_eq_some_iff.mp posted).1
    exact ⟨bound, by rw [List.getElem?_append_left bound, posted]⟩
  have uncollected : state.posted.length ∉ state.received.map (fun entry => entry.2.1) := by
    intro member
    obtain ⟨⟨owner, ticket, value⟩, found, same⟩ := List.mem_map.mp member
    have bound := (older (invariant.received owner ticket value found).1).1
    simp only at same
    omega
  constructor
  · simp [← List.append_assoc, invariant.order, List.range_succ]
  · exact invariant.answers
  · exact invariant.replied
  · intro other ticket held
    simp only [ticket?_update] at held
    split at held
    · next same => simp_all [ClientPhase.ticket?]
    · exact (older (invariant.holder other ticket held)).2
  · intro owner ticket posted
    simp only [ticket?_update]
    rcases Nat.lt_or_ge ticket state.posted.length with bound | beyond
    · simp only [List.getElem?_append_left bound] at posted
      refine (invariant.held owner ticket posted).imp_left (fun held => ?_)
      have other : owner ≠ c := by
        rintro rfl
        simp [idle, ClientPhase.ticket?] at held
      simpa [other] using held
    · have position := (List.getElem?_eq_some_iff.mp posted).1
      simp only [List.length_append, List.length_singleton] at position
      have last : ticket = state.posted.length := by omega
      subst ticket
      simp only [List.getElem?_concat_length, Option.some.injEq] at posted
      simp [posted, ClientPhase.ticket?]
  · intro owner ticket value member
    obtain ⟨posted, replied⟩ := invariant.received owner ticket value member
    exact ⟨(older posted).2, replied⟩
  · intro ticket member
    simp only [List.length_append, List.length_singleton]
    exact Nat.lt_succ_of_lt (invariant.left ticket member)
  · exact invariant.collected
  · intro other ticket held
    simp only [ticket?_update] at held
    split at held
    · simp only [ClientPhase.ticket?, Option.some.injEq] at held
      exact held ▸ uncollected
    · exact invariant.pending other ticket held
  · intro _ _
    exact ⟨c, state.posted.length, by simp⟩

/-- A notification leaves every ticket where it is and the server awake. -/
theorem Invariant.notify (invariant : Invariant state) {c : Client} {ticket : Nat}
    (posted : state.client c = .posted ticket)
    : Invariant
        { state with
          client := Function.update state.client c (.waiting ticket)
          server := state.server.notified } := by
  have same (other : Client)
      : (Function.update state.client c (.waiting ticket) other).ticket?
        = (state.client other).ticket? := by
    rw [ticket?_update]
    split
    · next equal => rw [equal, posted, ClientPhase.ticket?, ClientPhase.ticket?]
    · rfl
  exact {
    order := invariant.order
    answers := by simpa using invariant.answers
    replied := invariant.replied
    holder := fun other found held => invariant.holder other found (same other ▸ held)
    held := fun owner found member =>
      (invariant.held owner found member).imp_left (fun held => (same owner).trans held)
    received := invariant.received
    left := invariant.left
    collected := invariant.collected
    pending := fun other found held => invariant.pending other found (same other ▸ held)
    awake := fun asleep => absurd asleep (by simp)
  }

/-- A client that gives up or collects its ticket holds nothing afterwards. -/
theorem ticket?_idle (c other : Client) (ticket : Nat)
    (held : (Function.update state.client c .idle other).ticket? = some ticket)
    : other ≠ c ∧ (state.client other).ticket? = some ticket := by
  rw [ticket?_update] at held
  split at held
  · simp [ClientPhase.ticket?] at held
  · next different => exact ⟨different, held⟩

/-- A sleeping server with a non-empty queue keeps its notification when another client,
which has none to issue, returns to idle.
-/
theorem Invariant.awake_of_idle (invariant : Invariant state) {c : Client} {ticket : Nat}
    (waiting : state.client c = .waiting ticket) (asleep : state.server = .asleep)
    (queued : state.queue ≠ [])
    : ∃ other found, Function.update state.client c .idle other = .posted found := by
  obtain ⟨other, found, posted⟩ := invariant.awake asleep queued
  have different : other ≠ c := by
    rintro rfl
    simp [waiting] at posted
  exact ⟨other, found, by simpa [different] using posted⟩

/-- Collecting a reply moves the ticket from its holder to the received ones. -/
theorem Invariant.receive (invariant : Invariant state) {c : Client} {ticket : Nat}
    {value : Reply} (waiting : state.client c = .waiting ticket)
    (replied : state.reply ticket = some value)
    : Invariant
        { state with
          client := Function.update state.client c .idle
          received := state.received ++ [(c, ticket, value)] } := by
  have mine : (state.client c).ticket? = some ticket := by simp [waiting, ClientPhase.ticket?]
  constructor
  · exact invariant.order
  · exact invariant.answers
  · exact invariant.replied
  · exact fun other found held => invariant.holder other found (ticket?_idle c other found held).2
  · intro owner found posted
    rcases invariant.held owner found posted with held | ⟨old, member⟩ | gone
    · by_cases same : owner = c
      · subst owner
        rw [mine] at held
        obtain rfl := Option.some.inj held
        exact Or.inr (Or.inl ⟨value, by simp⟩)
      · left
        simpa [ticket?_update, same] using held
    · exact Or.inr (Or.inl ⟨old, List.mem_append_left _ member⟩)
    · exact Or.inr (Or.inr gone)
  · intro owner found old member
    rcases List.mem_append.mp member with earlier | last
    · exact invariant.received owner found old earlier
    · simp only [List.mem_singleton, Prod.mk.injEq] at last
      obtain ⟨rfl, rfl, rfl⟩ := last
      exact ⟨invariant.holder _ _ mine, replied⟩
  · exact invariant.left
  · rw [List.map_append, List.nodup_append]
    refine ⟨invariant.collected, by simp, ?_⟩
    intro found member other last
    simp only [List.map_cons, List.map_nil, List.mem_singleton] at last
    rintro rfl
    exact invariant.pending c ticket mine (last ▸ member)
  · intro other found held
    obtain ⟨different, holds⟩ := ticket?_idle c other found held
    rw [List.map_append, List.mem_append, not_or]
    refine ⟨invariant.pending other found holds, ?_⟩
    simp only [List.map_cons, List.map_nil, List.mem_singleton]
    rintro rfl
    exact different (invariant.holder_unique holds mine)
  · exact invariant.awake_of_idle waiting

/-- Abandoning a ticket takes it from its holder for good. -/
theorem Invariant.abandon (invariant : Invariant state) {c : Client} {ticket : Nat}
    (waiting : state.client c = .waiting ticket)
    : Invariant
        { state with
          client := Function.update state.client c .idle
          abandoned := state.abandoned ++ [ticket] } := by
  have mine : (state.client c).ticket? = some ticket := by simp [waiting, ClientPhase.ticket?]
  constructor
  · exact invariant.order
  · exact invariant.answers
  · exact invariant.replied
  · exact fun other found held => invariant.holder other found (ticket?_idle c other found held).2
  · intro owner found posted
    rcases invariant.held owner found posted with held | received | gone
    · by_cases same : owner = c
      · subst owner
        rw [mine] at held
        obtain rfl := Option.some.inj held
        exact Or.inr (Or.inr (by simp))
      · left
        simpa [ticket?_update, same] using held
    · exact Or.inr (Or.inl received)
    · exact Or.inr (Or.inr (List.mem_append_left _ gone))
  · exact invariant.received
  · intro found member
    rcases List.mem_append.mp member with earlier | last
    · exact invariant.left found earlier
    · obtain rfl := List.mem_singleton.mp last
      exact (List.getElem?_eq_some_iff.mp (invariant.holder c found mine)).1
  · exact invariant.collected
  · exact fun other found held => invariant.pending other found (ticket?_idle c other found held).2
  · exact invariant.awake_of_idle waiting

/-- Every step keeps the invariant, by cases on the step. -/
theorem Invariant.step {before after : State Client Reply} (invariant : Invariant before)
    (step : Step before after)
    : Invariant after := by
  cases step with
  | post c idle => exact invariant.post idle
  | notify c ticket posted => exact invariant.notify posted
  | receive c ticket value waiting replied => exact invariant.receive waiting replied
  | abandon c ticket waiting => exact invariant.abandon waiting
  | sleep awake empty =>
      exact invariant.setServer (by simp [awake, ServerPhase.working])
        (fun _ queued => absurd empty queued)
  | wake asleep =>
      exact invariant.setServer (by simp [asleep, ServerPhase.working]) (fun asleep => by simp at asleep)
  | take ticket rest awake queued => exact invariant.take awake queued
  | settle ticket value busy => exact invariant.settle value busy
  | finish ticket settled =>
      exact invariant.setServer (by simp [settled, ServerPhase.working]) (fun asleep => by simp at asleep)

end Steps

end RequestServer
