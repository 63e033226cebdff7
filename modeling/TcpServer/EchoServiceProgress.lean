import TcpServer.EchoServiceWait

/-!
# Progress of the echo service

Every step of the whole service spends its budget, as long as `::select` tells the
truth and the loop does not go round over an empty batch. An event of a batch stays
true until it is handled: nothing but its own handler takes away what it reports. So
a handler is never started for nothing.
-/

namespace TcpServer.EchoService

open EchoClient EchoConnection EchoConservation FrameEncoder Registry SocketIo Transition Pipes
open EventLoop (PollEvent Server Handling handles stored findSlotIndex Kept Bookkept mem_handles
  distinct_perm find_slot_some write_event_serves slots_focus)

section Conditions

variable {ι : Type} [Fintype ι] [DecidableEq ι]

/-- What an event says is so: a connection waits at the listener, or one of the
sessions owns the descriptor, and the mask names something to be done. -/
inductive EventReady (capacity : Nat) (state : State ι) (event : PollEvent) : Prop where
  | listener (own : event.socket = state.loop.server.listener.nativeHandle)
      (read : event.mask.has .read = true)
  | connection (name : ι) (owns : (state.sessions name).owns event.socket = true)
      (named : event.mask.has .read = true ∨ event.mask.has .write = true)
      (read : event.mask.has .read = true → (state.sessions name).up.readable = true)
      (write : event.mask.has .write = true → writeReady capacity (state.sessions name)
        (slotFor state.loop.server.slots (state.sessions name)) = true)

/-- What the budget rests on: the service is sound, the server keeps its books, and no
descriptor is to be handled twice in one batch. -/
structure Progressing (capacity : Nat) (state : State ι) : Prop where
  sound : ServiceSound state
  kept : Kept state.loop
  distinct : (inHand state.loop.server.listener state.loop.place ++
    (eventsLeft state.loop.place).map PollEvent.socket).Nodup
  ready : ∀ event ∈ eventsLeft state.loop.place, EventReady capacity state event
  closing : state.loop.place = .cleaning ∨ state.loop.place = .finished →
    ∀ name, (state.sessions name).client.phase = .finished

end Conditions

section Frames

variable {ι : Type} [Fintype ι] [DecidableEq ι] {capacity : Nat} {state next : State ι}

/-- The budget after a step that concerns one session: it becomes smaller when the
cost of that session, with those of the place and the listener, does. -/
theorem work_left_exchange (name : ι)
    (others : ∀ other, other ≠ name →
      sessionCost capacity next.loop.place (next.sessions other)
        (slotFor next.loop.server.slots (next.sessions other)) ≤
      sessionCost capacity state.loop.place (state.sessions other)
        (slotFor state.loop.server.slots (state.sessions other)))
    (own : placeCost next.loop.place + listenerCost next +
        sessionCost capacity next.loop.place (next.sessions name)
          (slotFor next.loop.server.slots (next.sessions name)) <
      placeCost state.loop.place + listenerCost state +
        sessionCost capacity state.loop.place (state.sessions name)
          (slotFor state.loop.server.slots (state.sessions name))) :
    workLeft capacity next < workLeft capacity state := by
  have balance := sum_exchange_le
    (fun other => sessionCost capacity state.loop.place (state.sessions other)
      (slotFor state.loop.server.slots (state.sessions other)))
    (fun other => sessionCost capacity next.loop.place (next.sessions other)
      (slotFor next.loop.server.slots (next.sessions other))) name others
  unfold workLeft
  omega

omit [DecidableEq ι] in
/-- The budget after a step that concerns no session: what is spent is spent by the
place and the listener. -/
theorem work_left_calm
    (calm : ∀ other, sessionCost capacity next.loop.place (next.sessions other)
        (slotFor next.loop.server.slots (next.sessions other)) ≤
      sessionCost capacity state.loop.place (state.sessions other)
        (slotFor state.loop.server.slots (state.sessions other)))
    (less : placeCost next.loop.place + listenerCost next <
      placeCost state.loop.place + listenerCost state) :
    workLeft capacity next < workLeft capacity state := by
  have total := Finset.sum_le_sum fun other (_ : other ∈ Finset.univ) => calm other
  unfold workLeft
  omega

omit [Fintype ι] [DecidableEq ι] in
/-- An event stays true when its connection stays as ready as it is. Readiness is lost
only by being served. -/
theorem event_ready_kept {event : PollEvent} (ready : EventReady capacity state event)
    (listener : next.loop.server.listener = state.loop.server.listener)
    (keeps : ∀ name, (state.sessions name).owns event.socket = true →
      (next.sessions name).owns event.socket = true ∧
      ((state.sessions name).up.readable = true → (next.sessions name).up.readable = true) ∧
      (writeReady capacity (state.sessions name)
          (slotFor state.loop.server.slots (state.sessions name)) = true →
        writeReady capacity (next.sessions name)
          (slotFor next.loop.server.slots (next.sessions name)) = true)) :
    EventReady capacity next event := by
  cases ready with
  | listener own read => exact .listener (listener ▸ own) read
  | connection name owns named read write =>
    obtain ⟨ownsStill, readable, writable⟩ := keeps name owns
    exact .connection name ownsStill named (readable ∘ read) (writable ∘ write)

end Frames

section Sessions

variable {ι : Type} [Fintype ι] [DecidableEq ι] {capacity : Nat} {state : State ι} {name : ι}
  {after : Session}

/-- With the same descriptor a session has the same slot, whatever else has happened
to it. -/
theorem slot_for_owners {session : Session} (owners : after.owns = session.owns)
    (slots : List ConnSlot) : slotFor slots after = slotFor slots session := by
  simp only [slotFor, owners]

/-- A step of a client or a pipe keeps what the budget rests on: the server does not
move, and the events that it holds stay true. -/
theorem progressing_session (progressing : Progressing capacity state)
    (sound : ServiceSound (state.update name after))
    (owners : after.owns = (state.sessions name).owns)
    (readable : (state.sessions name).up.readable = true → after.up.readable = true)
    (writable : ∀ slot, writeReady capacity (state.sessions name) slot = true →
      writeReady capacity after slot = true)
    (finished : (state.sessions name).client.phase = .finished → after.client.phase = .finished) :
    Progressing capacity (state.update name after) := by
  obtain ⟨_, kept, distinct, ready, closing⟩ := progressing
  refine ⟨sound, kept, distinct, ?_, ?_⟩
  · intro event member
    refine event_ready_kept (ready event member) rfl ?_
    intro other owns
    by_cases itself : other = name
    · subst itself
      simp only [update_own, slot_for_owners owners]
      exact ⟨owners ▸ owns, readable, writable _⟩
    · simp only [update_other _ _ itself]
      exact ⟨owns, id, id⟩
  · intro ending other
    by_cases itself : other = name
    · subst itself
      simpa only [update_own] using finished (closing ending other)
    · simpa only [update_other _ _ itself] using closing ending other

/-- Such a step spends what the session spends, and what the listener does not call
for. -/
theorem session_spends (owners : after.owns = (state.sessions name).owns)
    (own : listenerCost (state.update name after) +
        sessionCost capacity state.loop.place after
          (slotFor state.loop.server.slots (state.sessions name)) <
      listenerCost state + sessionCost capacity state.loop.place (state.sessions name)
        (slotFor state.loop.server.slots (state.sessions name))) :
    workLeft capacity (state.update name after) < workLeft capacity state := by
  refine work_left_exchange name ?_ ?_
  · intro other different
    simp only [update_loop, update_other _ _ different, le_refl]
  · simp only [update_loop, update_own, slot_for_owners owners] at own ⊢
    omega

/-- The queue of the listener depends on the stages only, so the steps of connected
clients do not change its length. -/
theorem pending_update (stage : after.stage = .pending ↔ (state.sessions name).stage = .pending) :
    (state.update name after).pending = state.pending := by
  unfold State.pending
  congr 1
  ext other
  rw [Finset.mem_filter, Finset.mem_filter]
  by_cases itself : other = name
  · subst itself
    rw [update_own, stage]
  · rw [update_other _ _ itself]

/-- What the listener has to pay depends on the stages of the sessions only. -/
theorem listener_cost_update (stage : after.stage = (state.sessions name).stage) :
    listenerCost (state.update name after) = listenerCost state := by
  simp only [listenerCost, pending_update (iff_of_eq (congrArg (· = Stage.pending) stage))]
  rfl

/-- Where the queue stays as it is, such a step spends what the session spends. -/
theorem session_spends_alone (stage : after.stage = (state.sessions name).stage)
    (own : sessionCost capacity state.loop.place after
        (slotFor state.loop.server.slots (state.sessions name)) <
      sessionCost capacity state.loop.place (state.sessions name)
        (slotFor state.loop.server.slots (state.sessions name))) :
    workLeft capacity (state.update name after) < workLeft capacity state := by
  refine session_spends (by funext handle; simp only [Session.owns, stage]) ?_
  rw [listener_cost_update stage]
  exact Nat.add_lt_add_left own _

omit [DecidableEq ι] in
/-- The listener calls for attention once, however many connections wait at it. -/
theorem listener_cost_most (state : State ι) : listenerCost state ≤ 5 := by
  unfold listenerCost
  split_ifs <;> omega

/-- Connecting pays for the attention of the listener, and for the accepting that it
leads to. -/
theorem connect_spends (unknown : (state.sessions name).stage = .unconnected)
    (connecting : (state.sessions name).client.phase = .connecting) :
    workLeft capacity (state.update name { state.sessions name with
      client := { (state.sessions name).client with phase := .encoding 0 }
      stage := .pending }) < workLeft capacity state := by
  refine session_spends (by funext handle; simp only [Session.owns, unknown]) ?_
  refine lt_of_le_of_lt (Nat.add_le_add_right (listener_cost_most _) _) ?_
  rw [sessionCost, sessionCost, attention_unaccepted (by rfl),
    attention_unaccepted (by simp only [Session.accepted, unknown])]
  simp only [clientCost, connecting, stageCost, unknown, linkCost, Nat.sub_zero]
  omega

/-- Every step of a client spends: connecting pays for the place in the queue, and
every other call for what it moves. -/
theorem client_progresses {endian : Endian} {next : State ι} {count : Nat}
    (progressing : Progressing capacity state)
    (sound : ServiceSound next)
    (stepped : clientStep endian capacity state name count = some next) :
    Progressing capacity next ∧ workLeft capacity next < workLeft capacity state := by
  unfold clientStep at stepped
  simp only at stepped
  split at stepped
  · rename_i connecting
    split at stepped
    · cases stepped
      have unknown := (progressing.sound.sessions name).unconnected.mp connecting
      refine ⟨progressing_session progressing sound ?_ id (fun _ => id) ?_,
        connect_spends unknown connecting⟩
      · funext handle
        simp only [Session.owns, unknown]
      · intro finished
        rw [connecting] at finished
        cases finished
    · cases stepped
  · obtain ⟨after, called, rfl⟩ := Option.map_eq_some_iff.mp stepped
    have session := progressing.sound.sessions name
    obtain ⟨_, _, stage⟩ := client_call_sound session called
    obtain ⟨readable, writable, going⟩ := client_call_wakes called
    have owners : after.owns = (state.sessions name).owns := by
      funext handle
      simp only [Session.owns, stage]
    refine ⟨progressing_session progressing sound owners readable.trans writable
      fun finished => absurd finished going,
      session_spends_alone stage (client_call_spends session called)⟩

end Sessions

section Batches

variable {ι : Type} [Fintype ι] {capacity : Nat} {state : State ι}

/-- The attention that a connection calls for while no handler works on it is that of
waiting. -/
theorem attention_idle {place : EventLoop.Place} {session : Session} (slot : ConnSlot)
    (idle : handlerOn place session = none) :
    attention capacity place session slot =
      waitingCost capacity (eventsLeft place) session slot := by
  simp only [attention, idle]

/-- Events for others make no difference to what a waiting connection has to pay. -/
theorem waiting_cost_cons {session : Session} (slot : ConnSlot) {event : PollEvent}
    (rest : List PollEvent) (other : session.owns event.socket = false) :
    waitingCost capacity (event :: rest) session slot = waitingCost capacity rest session slot := by
  simp only [waitingCost, List.any_cons, other, Bool.false_or]

/-- What the poller reports is so: each of its events names a waiting connection or a
ready session. -/
theorem reports_ready {batch : List PollEvent} (sound : ServiceSound state)
    (bookkept : Bookkept state.loop.server) (reports : Reports capacity state batch) :
    ∀ event ∈ batch, EventReady capacity state event := by
  intro event member
  obtain ⟨mask, listed, named, reads, writes⟩ := reports.registered event member
  rcases reports.ready event member with ⟨own, _⟩ | ⟨name, owns, readable, space⟩
  · -- The listener is registered for reading only.
    have registered := lists_lookup bookkept.lists (List.mem_cons_self)
    rw [← own, listed] at registered
    refine .listener own (named.resolve_right fun write => ?_)
    have nothing := writes write
    rw [Option.some.inj registered] at nothing
    exact absurd nothing (by decide)
  · refine .connection name owns named readable fun write => ?_
    obtain ⟨slot, within, handle⟩ := mem_handles.mp (sound.held name _ owns)
    have ownsSlot : (state.sessions name).owns slot.conn.nativeHandle = true := handle ▸ owns
    have registered := lists_lookup bookkept.lists
      (List.mem_cons_of_mem _ (List.mem_map_of_mem within))
    rw [handle, listed] at registered
    rw [slot_for_owned sound.distinct within ownsSlot]
    have wanted := writes write
    rw [Option.some.inj registered] at wanted
    by_cases unsent : slot.conn.writeBuf = []
    · simp only [InterestTracking.interestOf, unsent, ↓reduceIte] at wanted
      exact absurd wanted (by decide)
    · simp [writeReady, unsent, space write]

/-- A connection with an event is accepted and ready, so it has attention to pay for
the handler with. -/
theorem ready_attends {event : PollEvent} {name : ι} (sound : ServiceSound state)
    (bookkept : Bookkept state.loop.server) (ready : EventReady capacity state event)
    (owns : (state.sessions name).owns event.socket = true) :
    (state.sessions name).accepted = true ∧
      ((state.sessions name).up.readable = true ∨ writeReady capacity (state.sessions name)
        (slotFor state.loop.server.slots (state.sessions name)) = true) := by
  refine ⟨?_, ?_⟩
  · by_contra unaccepted
    have nobody := unaccepted_owns (Bool.not_eq_true _ ▸ unaccepted) event.socket
    rw [owns] at nobody
    cases nobody
  · cases ready with
    | listener own read =>
      rw [own, listener_unowned sound bookkept name] at owns
      cases owns
    | connection other also named read write =>
      obtain rfl := sound.single name other _ owns also
      exact named.imp read write

end Batches

section Server

variable {ι : Type} [Fintype ι] [DecidableEq ι] {capacity : Nat} {state next : State ι}

omit [DecidableEq ι] in
/-- Where only the place of the server changes, between handlers, a session pays as
much as its waiting costs. -/
theorem waiting_spends (state : State ι) (place : EventLoop.Place) (poller : SelectPoller)
    (before : ∀ session : Session, handlerOn state.loop.place session = none)
    (behind : ∀ session : Session, handlerOn place session = none)
    (waits : ∀ name, waitingCost capacity (eventsLeft place) (state.sessions name)
        (slotFor state.loop.server.slots (state.sessions name)) ≤
      waitingCost capacity (eventsLeft state.loop.place) (state.sessions name)
        (slotFor state.loop.server.slots (state.sessions name)))
    (less : placeCost place + listenerCost { state with
        loop := ⟨{ state.loop.server with poller }, place⟩ } <
      placeCost state.loop.place + listenerCost state) :
    workLeft capacity { state with loop := ⟨{ state.loop.server with poller }, place⟩ } <
      workLeft capacity state := by
  refine work_left_calm ?_ less
  intro name
  simp only [sessionCost, attention_idle _ (before _), attention_idle _ (behind _)]
  exact Nat.add_le_add_left (waits name) _

/-- A batch with an event spends: what it reports had called for more attention while
it waited than it does in the batch. Each session is named at most once, and so is the
listener. -/
theorem wait_spends {batch : List PollEvent} (sound : ServiceSound state)
    (bookkept : Bookkept state.loop.server) (standing : state.loop.place = .top)
    (reports : Reports capacity state batch) (some_event : batch ≠ []) :
    workLeft capacity { state with
      loop := ⟨state.loop.server, .handling (.dispatching batch)⟩ } < workLeft capacity state := by
  obtain ⟨⟨server, place⟩, sessions⟩ := state
  subst standing
  have waits : ∀ name, waitingCost capacity batch (sessions name)
      (slotFor server.slots (sessions name)) ≤ waitingCost capacity [] (sessions name)
      (slotFor server.slots (sessions name)) := by
    intro name
    by_cases reported : batch.any (fun event => (sessions name).owns event.socket) = true
    · obtain ⟨event, member, owns⟩ := List.any_eq_true.mp reported
      obtain ⟨accepted, ready⟩ := ready_attends sound bookkept
        (reports_ready sound bookkept reports event member) owns
      simp [waitingCost, reported, accepted, ready]
    · simp [waitingCost, reported]
  have unowned := listener_unowned sound bookkept
  -- The listener is only reported with a connection in its queue.
  have listens : ∀ event ∈ batch, event.socket = server.listener.nativeHandle →
      0 < State.pending ⟨⟨server, .top⟩, sessions⟩ := by
    intro event member own
    rcases reports.ready event member with ⟨_, waiting⟩ | ⟨name, owns, _⟩
    · exact waiting
    · rw [own, unowned name] at owns
      cases owns
  have listener : listenerCost (⟨⟨server, .handling (.dispatching batch)⟩, sessions⟩ : State ι) ≤
      listenerCost (⟨⟨server, .top⟩, sessions⟩ : State ι) := by
    by_cases reported :
        batch.any (fun event => event.socket == server.listener.nativeHandle) = true
    · obtain ⟨event, member, own⟩ := List.any_eq_true.mp reported
      have waiting := listens event member (beq_iff_eq.mp own)
      simp [listenerCost, accepts, eventsLeft, reported, waiting]
    · simp [listenerCost, accepts, eventsLeft, reported]
      rfl
  obtain ⟨event, rest, rfl⟩ := List.exists_cons_of_ne_nil some_event
  rcases reports.ready event List.mem_cons_self with ⟨own, waiting⟩ | ⟨name, owns, _⟩
  · refine waiting_spends ⟨⟨server, .top⟩, sessions⟩ _ server.poller (fun _ => rfl) (fun _ => rfl)
      waits ?_
    simp [listenerCost, accepts, eventsLeft, own, waiting, placeCost]
  · refine work_left_exchange name ?_ ?_
    · intro other _
      exact Nat.add_le_add_left (waits other) _
    · obtain ⟨accepted, ready⟩ := ready_attends sound bookkept
        (reports_ready sound bookkept reports event List.mem_cons_self) owns
      have called : attention capacity .top (sessions name)
          (slotFor server.slots (sessions name)) = 5 := by
        simp [attention, handlerOn, waitingCost, eventsLeft, accepted, ready]
      have reported : attention capacity (.handling (.dispatching (event :: rest)))
          (sessions name) (slotFor server.slots (sessions name)) = 2 := by
        simp [attention, handlerOn, waitingCost, eventsLeft, owns]
      simp only [sessionCost, called, reported, placeCost]
      omega

omit [DecidableEq ι] in
/-- The accept loop costs less than the event that starts it, since the event is gone
from the batch. -/
theorem listener_event_spends {event : PollEvent} {rest : List PollEvent}
    (sound : ServiceSound state) (bookkept : Bookkept state.loop.server)
    (standing : state.loop.place = .handling (.dispatching (event :: rest)))
    (own : event.socket = state.loop.server.listener.nativeHandle) :
    workLeft capacity { state with
      loop := ⟨state.loop.server, .handling (.accepting rest)⟩ } < workLeft capacity state := by
  obtain ⟨⟨server, place⟩, sessions⟩ := state
  subst standing
  refine waiting_spends ⟨⟨server, .handling (.dispatching (event :: rest))⟩, sessions⟩ _
    server.poller (fun _ => rfl) (fun _ => rfl) ?_ ?_
  · intro name
    have other : (sessions name).owns event.socket = false :=
      own ▸ listener_unowned sound bookkept name
    exact (waiting_cost_cons _ rest other).ge
  · simp [listenerCost, accepts, eventsLeft, own, placeCost]

/-- An event for a connection starts the handler that it asks for first: the read
handler, if it asks for reading. -/
theorem connection_event_serves {server : Server} {event : PollEvent} (rest : List PollEvent)
    (member : event.socket ∈ handles server.slots)
    (named : event.mask.has .read = true ∨ event.mask.has .write = true) :
    ∃ index phase, EventLoop.connectionEvent server event rest =
        .serving index event.socket phase rest ∧
      (phase = .receiving (event.mask.has .write) ∧ event.mask.has .read = true ∨
        phase = .flushing .eventLoop ∧ event.mask.has .write = true) := by
  obtain ⟨index, slot, found, _⟩ := find_slot_some member
  simp only [EventLoop.connectionEvent, found]
  by_cases read : event.mask.has .read = true
  · exact ⟨index, _, by simp only [read, ↓reduceIte], Or.inl ⟨rfl, read⟩⟩
  · have write := named.resolve_left read
    obtain ⟨widx, _, serves, _⟩ := write_event_serves server event.socket rest member
    exact ⟨widx, _, by simp only [read, write, serves, ↓reduceIte, Bool.false_eq_true],
      Or.inr ⟨rfl, write⟩⟩

/-- A handler that starts costs less than its event. The others pay what they paid,
since the event was not theirs. -/
theorem connection_event_spends {event : PollEvent} {rest : List PollEvent} {name : ι}
    (sound : ServiceSound state) (bookkept : Bookkept state.loop.server)
    (standing : state.loop.place = .handling (.dispatching (event :: rest)))
    (owns : (state.sessions name).owns event.socket = true)
    (named : event.mask.has .read = true ∨ event.mask.has .write = true)
    (read : event.mask.has .read = true → (state.sessions name).up.readable = true)
    (write : event.mask.has .write = true → writeReady capacity (state.sessions name)
      (slotFor state.loop.server.slots (state.sessions name)) = true) :
    workLeft capacity { state with loop := ⟨state.loop.server,
      .handling (EventLoop.connectionEvent state.loop.server event rest)⟩ } <
        workLeft capacity state := by
  obtain ⟨⟨server, place⟩, sessions⟩ := state
  subst standing
  obtain ⟨index, phase, serves, asked⟩ := connection_event_serves rest
    (sound.held name _ owns) named
  have apart : event.socket ≠ server.listener.nativeHandle := by
    intro own
    rw [own, listener_unowned sound bookkept name] at owns
    cases owns
  simp only [serves]
  refine work_left_exchange name ?_ ?_
  · intro other different
    have unowned : (sessions other).owns event.socket = false := by
      by_contra also
      exact different (sound.single name other _ owns (Bool.not_eq_false _ ▸ also))
    have calm : attention capacity (.handling (.serving index event.socket phase rest))
        (sessions other) (slotFor server.slots (sessions other)) =
          attention capacity (.handling (.dispatching (event :: rest)))
            (sessions other) (slotFor server.slots (sessions other)) := by
      simp [attention, handlerOn, unowned, eventsLeft, waiting_cost_cons]
    simp only [sessionCost, calm, le_refl]
  · have starts : attention capacity (.handling (.serving index event.socket phase rest))
        (sessions name) (slotFor server.slots (sessions name)) = 1 := by
      rcases asked with ⟨rfl, reads⟩ | ⟨rfl, writes⟩
      · simp [attention, handlerOn, owns, handlerCost, read reads]
      · simp [attention, handlerOn, owns, handlerCost, write writes]
    have reported : attention capacity (.handling (.dispatching (event :: rest)))
        (sessions name) (slotFor server.slots (sessions name)) = 2 := by
      simp [attention, handlerOn, waitingCost, eventsLeft, owns]
    have listener : listenerCost
        (⟨⟨server, .handling (.serving index event.socket phase rest)⟩, sessions⟩ : State ι) =
          listenerCost (⟨⟨server, .handling (.dispatching (event :: rest))⟩, sessions⟩ : State ι) := by
      simp [listenerCost, accepts, eventsLeft, apart]
      rfl
    simp only [sessionCost, starts, reported, listener, placeCost]
    omega

omit [DecidableEq ι] in
/-- Finding the queue empty ends the accept loop, and the listener calls for nothing
any more. -/
theorem accept_ends_spends {rest : List PollEvent}
    (standing : state.loop.place = .handling (.accepting rest)) (nobody : state.pending = 0)
    (once : state.loop.server.listener.nativeHandle ∉ rest.map PollEvent.socket) :
    workLeft capacity { state with
      loop := ⟨state.loop.server, .handling (.dispatching rest)⟩ } < workLeft capacity state := by
  obtain ⟨⟨server, place⟩, sessions⟩ := state
  subst standing
  refine waiting_spends ⟨⟨server, .handling (.accepting rest)⟩, sessions⟩ _ server.poller
    (fun _ => rfl) (fun _ => rfl) (fun _ => Nat.le_refl _) ?_
  have unreported : rest.any (fun event => event.socket == server.listener.nativeHandle) = false := by
    rw [List.any_eq_false]
    intro event member own
    exact once (beq_iff_eq.mp own ▸ List.mem_map_of_mem member)
  have empty : State.pending ⟨⟨server, .handling (.dispatching rest)⟩, sessions⟩ = 0 := nobody
  simp [listenerCost, accepts, eventsLeft, unreported, empty, placeCost]

/-- Waiting costs little, whatever the buffers hold. -/
theorem waiting_cost_most (capacity : Nat) (events : List PollEvent) (session : Session)
    (slot : ConnSlot) : waitingCost capacity events session slot ≤ 5 := by
  unfold waitingCost
  split
  · omega
  · split <;> omega

/-- A slot for another session is nothing to one that does not own it. -/
theorem slot_for_accepted {slots : List ConnSlot} {session : Session} {descriptor : Nat}
    (distinct : (handles slots).Nodup) (apart : ¬ session.owns (descriptor : Int) = true) :
    slotFor (slots ++ [acceptedSlot descriptor]) session = slotFor slots session := by
  have before : slots.Perm ([] ++ slots) := List.Perm.refl _
  refine slot_for_others distinct before List.perm_append_comm fun slot member => ?_
  rw [List.nil_append, List.mem_singleton] at member
  rw [member]
  exact Bool.eq_false_iff.mpr apart

/-- A connection in the queue pays for its own attention, and for the slot it is
given. The sessions of the others are not touched. -/
theorem accept_spends {rest : List PollEvent} {name : ι} {descriptor : Nat}
    (poller : SelectPoller) (sound : ServiceSound state)
    (standing : state.loop.place = .handling (.accepting rest))
    (pending : (state.sessions name).stage = .pending)
    (fresh : (descriptor : Int) ∉ handles state.loop.server.slots) :
    workLeft capacity { state.update name
        { state.sessions name with stage := .accepted descriptor } with
      loop := ⟨{ state.loop.server with
        slots := state.loop.server.slots ++ [acceptedSlot descriptor], poller },
        .handling (.accepting rest)⟩ } < workLeft capacity state := by
  obtain ⟨⟨server, place⟩, sessions⟩ := state
  subst standing
  change (sessions name).stage = .pending at pending
  have handle : (acceptedSlot descriptor).conn.nativeHandle = (descriptor : Int) := rfl
  have own : slotFor server.slots (sessions name) = emptySlot :=
    slot_for_absent fun handle owns => by simp [Session.owns, pending] at owns
  have ownAfter : slotFor (server.slots ++ [acceptedSlot descriptor])
      { sessions name with stage := .accepted descriptor } = acceptedSlot descriptor := by
    refine slot_for_owned ?_ (List.mem_append_right _ List.mem_cons_self)
      (by simp [Session.owns, handle])
    have perm : (server.slots ++ [acceptedSlot descriptor]).Perm
        ([acceptedSlot descriptor] ++ server.slots) := List.perm_append_comm
    rw [distinct_perm perm, List.singleton_append, EventLoop.handles, List.map_cons,
      List.nodup_cons]
    exact ⟨fresh, sound.distinct⟩
  refine work_left_exchange name ?_ ?_
  · intro other different
    have same : slotFor (server.slots ++ [acceptedSlot descriptor]) (sessions other) =
        slotFor server.slots (sessions other) :=
      slot_for_accepted sound.distinct fun also => fresh (sound.held other _ also)
    simp only [update_other _ _ different, same, sessionCost]
    exact Nat.le_refl _
  · have little := waiting_cost_most capacity rest
      { sessions name with stage := .accepted descriptor } (acceptedSlot descriptor)
    simp only [update_own, ownAfter, own, sessionCost, stageCost, pending, attention, handlerOn,
      eventsLeft]
    simp only [listenerCost, accepts, placeCost, linkCost, acceptedSlot, emptySlot, ↓reduceIte]
      at little ⊢
    omega

/-- Behind a pass the handler is still at its slot, or the loop goes on with its
batch. -/
theorem goes_to_cases {server : Server} {index : Nat} {socket : Int}
    (before : EchoConnection.Phase) {phase : EchoConnection.Phase} (rest : List PollEvent)
    (member : socket ∈ handles server.slots) (inCharge : serving phase = true) :
    (phase = .waiting ∧ goesTo server index socket before phase rest = .dispatching rest) ∨
      (phase ≠ .waiting ∧ ∃ widx,
        goesTo server index socket before phase rest = .serving widx socket phase rest) := by
  cases phase with
  | waiting => exact Or.inl ⟨rfl, rfl⟩
  | receiving thenWrite | decoding thenWrite | flushing caller =>
    refine Or.inr ⟨by rintro ⟨⟩, ?_⟩
    simp only [goesTo]
    split
    · rename_i leaves
      obtain ⟨_, onward⟩ := EventLoop.leaves_read_handler leaves
      obtain ⟨widx, _, serves, _⟩ := write_event_serves server socket rest member
      exact ⟨widx, by rw [serves, ← onward]⟩
    · exact ⟨index, rfl⟩
  | peerClosed | aborted cause | faulted fault => cases inCharge

/-- The attention that a connection calls for behind a pass on its slot is covered by
what the pass has left. -/
theorem left_cost_covers (capacity index : Nat) {server : Server} {socket : Int}
    (before : EchoConnection.Phase) {phase : EchoConnection.Phase} (rest : List PollEvent)
    {session : Session} (slot : ConnSlot) (owns : session.owns socket = true)
    (member : socket ∈ handles server.slots) (inCharge : serving phase = true) :
    attention capacity (.handling (goesTo server index socket before phase rest)) session slot ≤
      leftCost capacity session slot phase := by
  rcases goes_to_cases before rest member inCharge with ⟨rfl, goes⟩ | ⟨going, widx, goes⟩
  · rw [goes]
    exact waiting_cost_most capacity rest session slot
  · rw [goes]
    cases phase with
    | waiting => exact absurd rfl going
    | _ => simp only [attention, handlerOn, owns, ↓reduceIte, leftCost, le_refl]

/-- A pass of a handler is about its own connection: the rest of the batch stays true,
and the others call for as much attention as before. -/
theorem serve_moves {name : ι} {session : Session} {index : Nat} {socket : Int}
    {phase : EchoConnection.Phase} {rest : List PollEvent} (server : Server) (place : Handling)
    (progressing : Progressing capacity state)
    (standing : state.loop.place = .handling (.serving index socket phase rest))
    (owns : (state.sessions name).owns socket = true)
    (sound : ServiceSound { state.update name session with loop := ⟨server, .handling place⟩ })
    (kept : Kept ⟨server, .handling place⟩)
    (goes : place = .dispatching rest ∨ ∃ widx later, place = .serving widx socket later rest)
    (listener : server.listener = state.loop.server.listener)
    (others : ∀ other, other ≠ name → slotFor server.slots (state.sessions other) =
      slotFor state.loop.server.slots (state.sessions other))
    (pending : session.stage = .pending ↔ (state.sessions name).stage = .pending)
    (own : sessionCost capacity (.handling place) session (slotFor server.slots session) <
      sessionCost capacity state.loop.place (state.sessions name)
        (slotFor state.loop.server.slots (state.sessions name))) :
    Progressing capacity { state.update name session with loop := ⟨server, .handling place⟩ } ∧
      workLeft capacity { state.update name session with loop := ⟨server, .handling place⟩ } <
        workLeft capacity state := by
  obtain ⟨soundBefore, _, distinct, ready, _⟩ := progressing
  have apart : ∀ other, other ≠ name → (state.sessions other).owns socket = false := by
    intro other different
    by_contra also
    exact different (soundBefore.single name other _ owns (Bool.not_eq_false _ ▸ also))
  rw [standing] at distinct ready
  have once : ∀ event ∈ rest, event.socket ≠ socket := by
    intro event member same
    have alone := (List.nodup_cons.mp distinct).1
    exact alone (same ▸ List.mem_map_of_mem member)
  have left : eventsLeft (.handling place) = rest := by
    rcases goes with rfl | ⟨widx, later, rfl⟩ <;> rfl
  have hand : (inHand server.listener (.handling place)).Sublist [socket] := by
    rcases goes with rfl | ⟨widx, later, rfl⟩
    · exact List.nil_sublist _
    · exact List.Sublist.refl _
  have calm : ∀ other, other ≠ name → handlerOn (.handling place) (state.sessions other) = none := by
    intro other different
    rcases goes with rfl | ⟨widx, later, rfl⟩
    · rfl
    · simp only [handlerOn, apart other different, Bool.false_eq_true, ↓reduceIte]
  have calmBefore : ∀ other, other ≠ name →
      handlerOn state.loop.place (state.sessions other) = none := by
    intro other different
    simp only [standing, handlerOn, apart other different, Bool.false_eq_true, ↓reduceIte]
  have leftBefore : eventsLeft state.loop.place = rest := by rw [standing]; rfl
  refine ⟨⟨sound, kept, ?_, ?_, by rintro (ending | ending) <;> cases ending⟩, ?_⟩
  · refine List.Nodup.sublist ?_ distinct
    rw [left]
    exact hand.append_right _
  · intro event member
    rw [left] at member
    refine event_ready_kept (ready event member) listener ?_
    intro other also
    have different : other ≠ name := by
      rintro rfl
      exact once event member (owns_unique owns also)
    simp only [update_other _ _ different, others other different]
    exact ⟨also, id, id⟩
  · refine work_left_exchange name ?_ ?_
    · intro other different
      simp only [update_other _ _ different, others other different, sessionCost,
        attention_idle _ (calm other different), attention_idle _ (calmBefore other different),
        left, leftBefore, le_refl]
    · have same : listenerCost { state.update name session with
          loop := ⟨server, .handling place⟩ } = listenerCost state := by
        have queue : State.pending { state.update name session with
            loop := ⟨server, .handling place⟩ } = state.pending := pending_update pending
        have idle : accepts (.handling place) = false := by
          rcases goes with rfl | ⟨widx, later, rfl⟩ <;> rfl
        have idleBefore : accepts state.loop.place = false := by rw [standing]; rfl
        simp only [listenerCost, queue, idle, idleBefore, left, leftBefore, listener]
      have price : placeCost (.handling place) = placeCost state.loop.place := by
        rw [standing]
        rfl
      simp only [update_own, same, price]
      omega

/-- Every pass of a handler spends. The cases are the phases of the handler and what
becomes of the slot: it goes on, it is done, or the connection is dropped. -/
theorem serve_progresses {endian : Endian} {choice : ServerChoice ι} {after : State ι}
    {index : Nat} {socket : Int} {phase : EchoConnection.Phase} {rest : List PollEvent}
    {answer : EventLoop.Choice} {server : Server} {place : Handling}
    {events : List EventLoop.Event} (progressing : Progressing capacity state)
    (succeeds : choice.failure = none)
    (standing : state.loop.place = .handling (.serving index socket phase rest))
    (answered : answers capacity state choice = some (answer, after))
    (passed : EventLoop.servePass endian EventLoop.kMaxPayload EventLoop.scratchSize
      state.loop.server index socket phase rest answer = some (server, place, events))
    (kept : Kept ⟨server, .handling place⟩) :
    Progressing capacity { after with loop := ⟨server, .handling place⟩ } ∧
      workLeft capacity { after with loop := ⟨server, .handling place⟩ } <
        workLeft capacity state := by
  have sound := progressing.sound
  have soundAfter := serve_sound sound succeeds standing answered passed
  obtain ⟨name, session, slot, served, emitted, rfl, found, rfl, owns, called, stepped, goesOn,
    closes⟩ := serve_shape sound succeeds standing answered passed
  have member := List.mem_of_getElem? found
  have own := slot_for_owned sound.distinct member owns
  have serves : handlerOn state.loop.place (state.sessions name) = some phase := by
    simp only [handlerOn, standing, owns, ↓reduceIte]
  have connected := sound.sessions name
  rw [own, serves] at connected
  have valid := sound.valid member
  have passes := pass_sound connected valid (owner_held owns) called stepped
  have spends := pass_spends connected valid (owner_held owns) called stepped
  have client := call_answer_client called
  have handle : served.slot.conn.nativeHandle = slot.conn.nativeHandle :=
    InterestTracking.effect_handle (InterestTracking.server_step_effect stepped)
  obtain ⟨inside, _⟩ := List.getElem?_eq_some_iff.mp found
  have before := slots_focus found
  have notPending : (state.sessions name).stage ≠ .pending := by
    intro pending
    simp [Session.owns, pending] at owns
  have apart : ∀ other, other ≠ name →
      (state.sessions other).owns slot.conn.nativeHandle = false := by
    intro other different
    by_contra also
    exact different (sound.single name other _ owns (Bool.not_eq_false _ ▸ also))
  have paidBefore : attention capacity state.loop.place (state.sessions name) slot =
      handlerCost capacity (state.sessions name) slot phase := by
    simp only [attention, serves]
  rcases passes.outcome with ⟨going, stage, _⟩ | ⟨gone, dropped, _⟩
  · obtain ⟨rfl, rfl⟩ := goesOn going
    have owners : session.owns = (state.sessions name).owns := by
      funext other
      simp only [Session.owns, stage]
    have behind : (stored state.loop.server index served).slots.Perm
        ([served.slot] ++ state.loop.server.slots.eraseIdx index) :=
      List.set_perm_cons_eraseIdx inside served.slot
    have within : served.slot ∈ (stored state.loop.server index served).slots :=
      behind.mem_iff.mpr (List.mem_append_left _ List.mem_cons_self)
    have ownAfter := slot_for_owned soundAfter.distinct within
      (by rw [owners, handle]; exact owns)
    have listed : slot.conn.nativeHandle ∈ handles (stored state.loop.server index served).slots :=
      mem_handles.mpr ⟨served.slot, within, handle⟩
    refine serve_moves _ _ progressing standing owns soundAfter kept ?_ rfl ?_ (by rw [stage]) ?_
    · rcases goes_to_cases phase rest listed going with ⟨_, goes⟩ | ⟨_, widx, goes⟩
      · exact Or.inl goes
      · exact Or.inr ⟨widx, _, goes⟩
    · intro other different
      refine slot_for_others sound.distinct before behind fun some_slot either => ?_
      rcases List.mem_append.mp either with old | new
      · rw [List.mem_singleton.mp old]
        exact apart other different
      · rw [List.mem_singleton.mp new, handle]
        exact apart other different
    · have covers := left_cost_covers capacity index phase rest served.slot (owners ▸ owns)
        listed going
      have less := spends.goesOn going
      rw [ownAfter, own]
      simp only [sessionCost, client, stage, paidBefore]
      omega
  · obtain ⟨slots, _, listener, rfl⟩ := closes gone
    have nobody : session.accepted = false := by simp only [Session.accepted, dropped]
    have behind : server.slots.Perm ([] ++ state.loop.server.slots.eraseIdx index) := by
      rw [slots]
      exact EventLoop.removed_perm found served.slot
    have ownAfter : slotFor server.slots session = emptySlot :=
      slot_for_absent fun other also => by simp [unaccepted_owns nobody] at also
    refine serve_moves _ _ progressing standing owns soundAfter kept (Or.inl rfl) listener ?_ ?_ ?_
    · intro other different
      refine slot_for_others sound.distinct before behind fun some_slot either => ?_
      rw [List.mem_append, List.mem_singleton] at either
      rw [either.resolve_right List.not_mem_nil]
      exact apart other different
    · rw [dropped]
      exact iff_of_false (by rintro ⟨⟩) notPending
    · have less := spends.closes gone
      rw [ownAfter, own]
      simp only [sessionCost, client, dropped, paidBefore, stageCost,
        attention_unaccepted nobody]
      omega

omit [DecidableEq ι] in
/-- A step of the server between handlers keeps what the budget rests on, when its new
events are true and distinct. -/
theorem progressing_place (state : State ι) (place : EventLoop.Place) (poller : SelectPoller)
    (sound : ServiceSound { state with loop := ⟨{ state.loop.server with poller }, place⟩ })
    (kept : Kept ⟨{ state.loop.server with poller }, place⟩)
    (distinct : (inHand state.loop.server.listener place ++
      (eventsLeft place).map PollEvent.socket).Nodup)
    (ready : ∀ event ∈ eventsLeft place, EventReady capacity state event)
    (closing : place = .cleaning ∨ place = .finished →
      ∀ name, (state.sessions name).client.phase = .finished) :
    Progressing capacity { state with loop := ⟨{ state.loop.server with poller }, place⟩ } :=
  ⟨sound, kept, distinct,
    fun event member => event_ready_kept (ready event member) rfl fun _ owns => ⟨owns, id, id⟩,
    closing⟩

/-- Every pass of the accept loop spends: it accepts a connection that waits, or it
finds none and the event of the listener is done with. -/
theorem accept_progresses {choice : ServerChoice ι} {after : State ι} {rest : List PollEvent}
    {answer : EventLoop.Choice} (progressing : Progressing capacity state)
    (obliging : Obliging state choice)
    (standing : state.loop.place = .handling (.accepting rest))
    (answered : answers capacity state choice = some (answer, after))
    (kept : Kept ⟨(EventLoop.acceptPass state.loop.server rest answer).1,
      .handling (EventLoop.acceptPass state.loop.server rest answer).2.1⟩) :
    Progressing capacity { after with
        loop := ⟨(EventLoop.acceptPass state.loop.server rest answer).1,
          .handling (EventLoop.acceptPass state.loop.server rest answer).2.1⟩ } ∧
      workLeft capacity { after with
        loop := ⟨(EventLoop.acceptPass state.loop.server rest answer).1,
          .handling (EventLoop.acceptPass state.loop.server rest answer).2.1⟩ } <
        workLeft capacity state := by
  have soundAfter := accept_sound progressing.sound obliging standing answered
  obtain ⟨sound, _, distinct, ready, _⟩ := progressing
  rw [standing] at distinct ready
  have once := (List.nodup_cons.mp distinct).1
  simp only [answers, standing, obliging.succeeds, obliging.unblocks, Session.takenOver, ↓reduceIte]
    at answered
  cases named : choice.name with
  | none =>
    simp only [named] at answered
    split at answered
    · rename_i nobody
      cases answered
      rw [accept_pass_ends sound.listens] at soundAfter kept ⊢
      exact ⟨progressing_place state (.handling (.dispatching rest)) state.loop.server.poller
        soundAfter kept distinct.of_cons ready (by simp),
        accept_ends_spends standing nobody once⟩
    · cases answered
  | some name =>
    simp only [named] at answered
    split at answered
    · rename_i allowed
      obtain ⟨pending, unused⟩ := allowed
      cases answered
      have fresh : (choice.descriptor : Int) ∉ handles state.loop.server.slots :=
        fun member => unused (List.mem_cons_of_mem _ member)
      obtain ⟨poller, passed⟩ := accept_pass_adds sound.listens rest choice.descriptor
      rw [passed] at soundAfter kept ⊢
      refine ⟨⟨soundAfter, kept, distinct, ?_, by simp⟩,
        accept_spends poller sound standing pending fresh⟩
      intro event member
      refine event_ready_kept (ready event member) rfl ?_
      intro other owns
      have different : other ≠ name := by
        rintro rfl
        simp [Session.owns, pending] at owns
      have same : slotFor (state.loop.server.slots ++ [acceptedSlot choice.descriptor])
          (state.sessions other) = slotFor state.loop.server.slots (state.sessions other) :=
        slot_for_accepted sound.distinct fun also => fresh (sound.held other _ also)
      simp only [update_other _ _ different, same]
      exact ⟨owns, id, id⟩
    · cases answered

/-- At the head of its loop the server ends it, which spends, or waits, which spends
unless there is nothing to report. -/
theorem round_progresses {endian : Endian} {choice : ServerChoice ι}
    {told : List EventLoop.Event} (progressing : Progressing capacity state)
    (top : state.loop.place = .top) (faithful : Faithful capacity state (.server choice))
    (stepped : roundStep endian state choice = some (next, told)) :
    Progressing capacity next ∧
      (Busy capacity state (.server choice) → workLeft capacity next < workLeft capacity state) := by
  have sound := progressing.sound
  have obliging : Obliging state choice := faithful.1
  have bookkept : Bookkept state.loop.server :=
    EventLoop.kept_between progressing.kept (by rw [top]; rfl)
  have idle : ∀ session : Session, handlerOn state.loop.place session = none := fun _ => by
    rw [top]
    rfl
  rcases round_step_cases sound bookkept top obliging stepped with
    ⟨flag, empty, rfl⟩ | ⟨stays, waited, written, waits, result, rfl⟩
  · have soundAfter := sound_place sound state.loop.server.poller .cleaning empty idle
    refine ⟨progressing_place state .cleaning state.loop.server.poller soundAfter bookkept
      List.nodup_nil (by rintro _ ⟨⟩) fun _ => obliging.last flag, fun _ => ?_⟩
    obtain ⟨⟨server, place⟩, sessions⟩ := state
    subst top
    exact waiting_spends ⟨⟨server, .top⟩, sessions⟩ .cleaning server.poller (fun _ => rfl)
      (fun _ => rfl) (fun _ => Nat.le_refl _) (Nat.add_lt_add_right (Nat.lt_succ_self 2) _)
  · have reports : Reports capacity state (waited.outEvents.take written) := by
      cases selected : choice.select with
      | failed errno => exact absurd selected (obliging.selects errno)
      | returned count sets =>
        rw [selected] at waits
        exact truthful_reports sound bookkept (faithful.2 choice rfl top count sets selected) waits
          result
    have true_events := reports_ready sound bookkept reports
    have soundAfter := sound_place sound state.loop.server.poller
      (.handling (.dispatching (waited.outEvents.take written))) trivial idle
    refine ⟨progressing_place state (.handling (.dispatching (waited.outEvents.take written)))
      state.loop.server.poller soundAfter bookkept reports.distinct true_events (by simp),
      fun busy => wait_spends sound bookkept top reports ?_⟩
    have batch : state.batch choice = waited.outEvents.take written := by
      simp only [State.batch, waits, batchOf, result, Except.map]
    exact batch ▸ (busy.2 choice rfl top).resolve_right stays

/-- Every step of the server keeps what the budget rests on. It spends, unless it waits
for nothing. -/
theorem server_progresses {endian : Endian} {choice : ServerChoice ι}
    {told : List EventLoop.Event} (progressing : Progressing capacity state)
    (faithful : Faithful capacity state (.server choice))
    (stepped : serverStep endian capacity state choice = some (next, told)) :
    Progressing capacity next ∧
      (Busy capacity state (.server choice) → workLeft capacity next < workLeft capacity state) := by
  have sound := progressing.sound
  have obliging : Obliging state choice := faithful.1
  obtain ⟨soundAfter, kept⟩ := server_sound sound progressing.kept obliging stepped
  rcases server_step_cases stepped with
    ⟨top, round⟩ | ⟨away, answer, after, loop, answered, moved, rfl⟩
  · exact round_progresses progressing top faithful round
  · obtain ⟨⟨server, place⟩, sessions⟩ := state
    obtain ⟨_, keptBefore, distinct, ready, closing⟩ := progressing
    cases place with
    | top => exact absurd rfl away
    | handling handling =>
      cases handling with
      | dispatching batch =>
        cases answered
        cases batch with
        | nil =>
          cases moved
          refine ⟨progressing_place ⟨⟨server, .handling (.dispatching [])⟩, sessions⟩ .top
            server.poller soundAfter kept List.nodup_nil (by rintro _ ⟨⟩) (by simp), fun _ => ?_⟩
          exact waiting_spends ⟨⟨server, .handling (.dispatching [])⟩, sessions⟩ .top
            server.poller (fun _ => rfl) (fun _ => rfl) (fun _ => Nat.le_refl _)
            (Nat.add_lt_add_right (Nat.lt_succ_self 3) _)
        | cons event rest =>
          have later : ∀ other ∈ rest, EventReady capacity
              ⟨⟨server, .handling (.dispatching (event :: rest))⟩, sessions⟩ other :=
            fun other member => ready other (List.mem_cons_of_mem _ member)
          cases ready event List.mem_cons_self with
          | listener own read =>
            change event.socket = server.listener.nativeHandle at own
            change (event.socket :: rest.map PollEvent.socket).Nodup at distinct
            simp only [EventLoop.runServer, own, EventLoop.listenerEvent, read, ↓reduceIte]
              at moved
            cases moved
            refine ⟨progressing_place ⟨⟨server, .handling (.dispatching (event :: rest))⟩, sessions⟩
              (.handling (.accepting rest)) server.poller soundAfter kept ?_ later (by simp),
              fun _ => listener_event_spends sound keptBefore rfl own⟩
            rw [own] at distinct
            exact distinct
          | connection name owns named read write =>
            have apart : event.socket ≠ server.listener.nativeHandle := by
              intro own
              rw [own] at owns
              rw [listener_unowned sound keptBefore name] at owns
              cases owns
            simp only [EventLoop.runServer, apart, ↓reduceIte] at moved
            cases moved
            have spends := connection_event_spends sound keptBefore rfl owns named read write
            obtain ⟨index, phase, serves, _⟩ := connection_event_serves rest
              (sound.held name _ owns) named
            rw [serves] at soundAfter kept spends ⊢
            exact ⟨progressing_place ⟨⟨server, .handling (.dispatching (event :: rest))⟩, sessions⟩
              (.handling (.serving index event.socket phase rest)) server.poller soundAfter kept
              distinct later (by simp), fun _ => spends⟩
      | accepting rest =>
        cases moved
        obtain ⟨progresses, spends⟩ := accept_progresses
          ⟨sound, keptBefore, distinct, ready, closing⟩ obliging rfl answered kept
        exact ⟨progresses, fun _ => spends⟩
      | serving index socket phase rest =>
        simp only [EventLoop.runServer] at moved
        cases passed : EventLoop.servePass endian EventLoop.kMaxPayload EventLoop.scratchSize
            server index socket phase rest answer with
        | none => simp [passed] at moved
        | some outcome =>
          obtain ⟨served, place, emitted⟩ := outcome
          simp only [passed] at moved
          cases moved
          obtain ⟨progresses, spends⟩ := serve_progresses
            ⟨sound, keptBefore, distinct, ready, closing⟩ obliging.succeeds rfl answered passed kept
          exact ⟨progresses, fun _ => spends⟩
      | aborted cause => cases sound.place
      | faulted fault => cases sound.place
    | cleaning =>
      have empty : server.slots = [] := sound.place
      simp only [answers, empty, List.getLast?_nil] at answered
      cases answered
      simp only [EventLoop.runServer, empty, List.isEmpty_nil, ↓reduceIte] at moved
      cases moved
      rw [← empty] at soundAfter kept ⊢
      exact ⟨progressing_place ⟨⟨server, .cleaning⟩, sessions⟩ .finished _ soundAfter kept
        List.nodup_nil (by rintro _ ⟨⟩) fun _ => closing (Or.inl rfl), fun _ =>
        waiting_spends ⟨⟨server, .cleaning⟩, sessions⟩ .finished _ (fun _ => rfl)
          (fun _ => rfl) (fun _ => Nat.le_refl _) (Nat.add_lt_add_right Nat.two_pos _)⟩
    | finished => cases moved

end Server

section Runs

variable {ι : Type} [Fintype ι] [DecidableEq ι] {endian : Endian} {capacity : Nat}
  {state next : State ι}

/-- Every step of the service keeps what its budget rests on, and spends when it is
a busy one. -/
theorem service_progresses {action : Action ι} {events : List EventLoop.Event}
    (progressing : Progressing capacity state) (faithful : Faithful capacity state action)
    (stepped : serviceStep endian capacity state action = some (next, events)) :
    Progressing capacity next ∧
      (Busy capacity state action → workLeft capacity next < workLeft capacity state) := by
  obtain ⟨sound, _⟩ := service_step_sound progressing.sound progressing.kept faithful.1 stepped
  cases action with
  | client name count =>
    obtain ⟨after, taken, same⟩ := Option.map_eq_some_iff.mp stepped
    cases same
    obtain ⟨progresses, spends⟩ := client_progresses progressing sound taken
    exact ⟨progresses, fun _ => spends⟩
  | upward name count =>
    obtain ⟨up, advanced, same⟩ := Option.map_eq_some_iff.mp stepped
    cases same
    exact ⟨progressing_session progressing sound rfl (Pipe.advance_readable advanced)
      (fun _ => id) id, fun _ => session_spends_alone rfl (upward_spends advanced)⟩
  | downward name count =>
    obtain ⟨down, advanced, same⟩ := Option.map_eq_some_iff.mp stepped
    cases same
    have writable : ∀ slot, writeReady capacity { state.sessions name with down } slot =
        writeReady capacity (state.sessions name) slot :=
      fun slot => write_ready_same (by rw [Pipe.advance_contents advanced])
    exact ⟨progressing_session progressing sound rfl id (fun slot => (writable slot).trans) id,
      fun _ => session_spends_alone rfl (downward_spends advanced)⟩
  | server choice => exact server_progresses progressing faithful stepped

omit [DecidableEq ι] in
/-- The service starts as one that makes progress: nothing is connected, and the batch
is empty. -/
theorem started_progressing {listener : Socket} (inRange : SelectWait.InRange listener.nativeHandle)
    {clients : ι → Client} (connecting : ∀ name, (clients name).phase = .connecting)
    (fits : ∀ name, (clients name).payload.length ≤ FrameDecoder.payloadCap EventLoop.kMaxPayload) :
    Progressing capacity (started listener clients) := by
  have usable : listener.nativeHandle ≠ kInvalidSocket := by
    simpa [Socket.valid, Socket.nativeHandle] using in_range_valid inRange
  have top : (started listener clients).loop.place = .top := by
    simp [started, EventLoop.opened, Acceptor.registerListener, SelectPoller.upsert, usable]
  refine ⟨started_sound inRange connecting fits, EventLoop.opened_kept listener, ?_, ?_, ?_⟩
  · rw [top]
    exact List.nodup_nil
  · rw [top]
    rintro _ ⟨⟩
  · rw [top]
    rintro (ending | ending) <;> cases ending

/-- What the budget rests on holds along every run in which `::select` tells the
truth. Proof: by the step lemma, as an invariant. -/
theorem run_progressing {start : State ι} {history : List EventLoop.Event}
    (progressing : Progressing capacity start)
    (run : Run (echoService ι endian capacity) (Faithful capacity) start state history) :
    Progressing capacity state := by
  refine run_invariant (fun state _ => Progressing capacity state) progressing ?_ run
  intro state history action next events _ progressing faithful stepped
  exact (service_progresses progressing faithful stepped).1

/-- The budget of the service: what a busy step keeps, and what it spends. That every
run settles is then a general fact about budgets. -/
def serviceBudget (ι : Type) [Fintype ι] [DecidableEq ι] (endian : Endian) (capacity : Nat) :
    Budget (echoService ι endian capacity) (Busy capacity) where
  invariant := Progressing capacity
  measure := workLeft capacity
  kept _ _ _ _ progressing busy stepped := (service_progresses progressing busy.1 stepped).1
  spent _ _ _ _ progressing busy stepped := (service_progresses progressing busy.1 stepped).2 busy

end Runs

end TcpServer.EchoService
