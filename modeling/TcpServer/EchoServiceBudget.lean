import TcpServer.EchoServiceSafety

/-!
# The budget of the echo service

A byte pays for its way: from the client through a pipe, the read buffer, the write
buffer and the other pipe back to the client, each place costs less than the one
before it. The differences also pay for the attention that a byte calls for where it
arrives: an entry in a batch, the passes of the handlers, a wait that finds it.

Every call of a client, every arrival and every pass of a handler spends.
-/

namespace TcpServer.EchoService

open EchoClient EchoConnection EchoConservation FrameEncoder Registry SocketIo Transition Pipes
open EventLoop (PollEvent Server Handling handles stored findSlotIndex Kept)

/-- The server has bytes for this client, and there is room for them. This is when a
send makes progress. -/
def writeReady (capacity : Nat) (session : Session) (slot : ConnSlot) : Bool :=
  !slot.conn.writeBuf.isEmpty && decide (0 < session.down.room capacity)

/-- The events of the batch that have not been handled yet. Behind the batch there are
none. -/
def eventsLeft : EventLoop.Place → List PollEvent
  | .handling (.dispatching events) | .handling (.accepting events)
  | .handling (.serving _ _ _ events) => events
  | _ => []

/-- The socket that is being handled, if any: the listener or that of a connection. -/
def inHand (listener : Socket) : EventLoop.Place → List Int
  | .handling (.accepting _) => [listener.nativeHandle]
  | .handling (.serving _ socket _ _) => [socket]
  | _ => []

section Costs

/-- What a client and its unsent bytes have to pay. Each byte of a round pays for its
whole way to the server and back. -/
def clientCost (client : Client) : Nat :=
  let perRound := 31 * (frame client.payload).length + 1
  match client.phase with
  | .connecting => client.roundTrips * perRound + 2
  | .encoding round => (client.roundTrips - round) * perRound + 1
  | .sending round wireOut off =>
      (client.roundTrips - (round + 1)) * perRound + 31 * (wireOut.length - off) + 1
  | .receiving round _ => (client.roundTrips - (round + 1)) * perRound + 1
  | .finished | .aborted _ | .faulted _ => 0

/-- What the end of a stream has to pay before it has arrived. -/
def endCost (price : Nat) : Tail → Nat
  | .ended => 0
  | _ => price

/-- What the bytes on a connection have to pay, and the ends of its streams. A byte
becomes cheaper with every station of its way. -/
def linkCost (session : Session) (slot : ConnSlot) : Nat :=
  30 * session.up.inFlight.length + 24 * session.up.arrived.length +
    15 * slot.conn.readBuf.length + 14 * slot.conn.writeBuf.length +
    7 * session.down.inFlight.length + 6 * session.down.arrived.length +
    endCost 6 session.up.tail + endCost 1 session.down.tail

/-- What accepting a connection costs. It covers the passes of the loop that the new
connection makes necessary. -/
def stageCost : Stage → Nat
  | .unconnected => 12
  | .pending => 6
  | .accepted _ | .dropped => 0

/-- What a handler has to pay until it is done with its slot. Where its next call
will succeed, the bytes that the call moves pay for the rest. -/
def handlerCost (capacity : Nat) (session : Session) (slot : ConnSlot) :
    EchoConnection.Phase → Nat
  | .receiving _ => if session.up.readable then 1 else 8
  | .decoding _ => 9
  | .flushing (.readHandler _) => 10
  | .flushing .eventLoop => if writeReady capacity session slot then 1 else 7
  | _ => 6

/-- The session has been accepted and has a descriptor. Only then can it call for
attention. -/
def Session.accepted (session : Session) : Bool :=
  match session.stage with
  | .accepted _ => true
  | _ => false

/-- What a connection has to pay that waits for a handler: less with its event in the
batch, nothing while there is nothing to do for it. -/
def waitingCost (capacity : Nat) (events : List PollEvent) (session : Session) (slot : ConnSlot) :
    Nat :=
  if events.any fun event => session.owns event.socket then 2
  else if session.accepted && (session.up.readable || writeReady capacity session slot) then 5
  else 0

/-- What a connection has to pay for the server's attention, whether a handler is at
work on it or not. -/
def attention (capacity : Nat) (place : EventLoop.Place) (session : Session) (slot : ConnSlot) :
    Nat :=
  match handlerOn place session with
  | some phase => handlerCost capacity session slot phase
  | none => waitingCost capacity (eventsLeft place) session slot

/-- What is left to do for a session: at its client, on its way, and in the server. -/
def sessionCost (capacity : Nat) (place : EventLoop.Place) (session : Session) (slot : ConnSlot) :
    Nat :=
  clientCost session.client + stageCost session.stage + linkCost session slot +
    attention capacity place session slot

/-- What is left to do in this round of the loop. A round that handles nothing leads
to the next wait. -/
def placeCost : EventLoop.Place → Nat
  | .handling _ => 4
  | .top => 3
  | .cleaning => 2
  | .finished => 0

variable {ι : Type} [Fintype ι] [DecidableEq ι]

/-- The accept loop is running, so the listener has the server's attention. -/
def accepts : EventLoop.Place → Bool
  | .handling (.accepting _) => true
  | _ => false

/-- What the listener has to pay for the server's attention, while connections wait at
it. -/
def listenerCost (state : State ι) : Nat :=
  if accepts state.loop.place then 1
  else if (eventsLeft state.loop.place).any fun event =>
      event.socket == state.loop.server.listener.nativeHandle then 2
  else if 0 < state.pending then 5
  else 0

/-- The whole budget: of the loop, of the listener and of all sessions. Every busy
step makes it smaller. -/
def workLeft (capacity : Nat) (state : State ι) : Nat :=
  placeCost state.loop.place + listenerCost state +
    ∑ name, sessionCost capacity state.loop.place (state.sessions name)
      (slotFor state.loop.server.slots (state.sessions name))

end Costs

section Sessions

variable {capacity : Nat} {place : EventLoop.Place} {session after : Session} {slot : ConnSlot}

/-- The attention that a connection calls for depends on little: its stage, whether it
is readable, and whether it is writable. -/
theorem attention_same (stage : after.stage = session.stage)
    (readable : after.up.readable = session.up.readable)
    (writable : writeReady capacity after slot = writeReady capacity session slot) :
    attention capacity place after slot = attention capacity place session slot := by
  have owners : after.owns = session.owns := by
    funext handle
    simp only [Session.owns, stage]
  have handler : handlerOn place after = handlerOn place session := by
    simp only [handlerOn, owners]
  unfold attention
  rw [handler]
  cases handlerOn place session with
  | none =>
    simp only [waitingCost, owners, Session.accepted, stage, readable, writable]
    rfl
  | some phase =>
    cases phase with
    | flushing caller => cases caller <;> simp only [handlerCost, writable]
    | _ => simp only [handlerCost, readable]

/-- A handler at work has less to pay when its call will succeed, so becoming ready
costs nothing there. -/
theorem handler_cost_wakes (readable : session.up.readable = true → after.up.readable = true)
    (writable : writeReady capacity session slot = true → writeReady capacity after slot = true)
    (phase : EchoConnection.Phase) :
    handlerCost capacity after slot phase ≤ handlerCost capacity session slot phase := by
  cases phase with
  | receiving thenWrite =>
    by_cases waiting : session.up.readable = true
    · simp [handlerCost, waiting, readable waiting]
    · simp only [handlerCost, waiting]
      split <;> simp
  | flushing caller =>
    cases caller with
    | readHandler thenWrite => exact Nat.le_refl _
    | eventLoop =>
      by_cases waiting : writeReady capacity session slot = true
      · simp [handlerCost, waiting, writable waiting]
      · simp only [handlerCost, waiting]
        split <;> simp
  | _ => exact Nat.le_refl _

/-- A connection that becomes ready calls for attention once, at a price that the
arriving bytes can pay. -/
theorem attention_wakes (stage : after.stage = session.stage)
    (readable : session.up.readable = true → after.up.readable = true)
    (writable : writeReady capacity session slot = true → writeReady capacity after slot = true) :
    attention capacity place after slot ≤ attention capacity place session slot + 5 := by
  have owners : after.owns = session.owns := by
    funext handle
    simp only [Session.owns, stage]
  have handler : handlerOn place after = handlerOn place session := by
    simp only [handlerOn, owners]
  unfold attention
  rw [handler]
  cases handlerOn place session with
  | none =>
    simp only [waitingCost, owners]
    split
    · omega
    · split <;> omega
  | some phase => exact (handler_cost_wakes readable writable phase).trans (Nat.le_add_right _ _)

/-- A connection that the server has not accepted has no descriptor, and so calls for
nothing. -/
theorem unaccepted_owns (unaccepted : session.accepted = false) (handle : Int) :
    session.owns handle = false := by
  cases stage : session.stage with
  | accepted descriptor => simp [Session.accepted, stage] at unaccepted
  | unconnected | pending | dropped => simp only [Session.owns, stage]

/-- A session that was not accepted costs no attention. -/
theorem attention_unaccepted (unaccepted : session.accepted = false) :
    attention capacity place session slot = 0 := by
  have nobody := unaccepted_owns unaccepted
  have idle : handlerOn place session = none := by
    unfold handlerOn
    split
    · simp only [nobody, Bool.false_eq_true, ↓reduceIte]
    · rfl
  simp [attention, idle, waitingCost, nobody, unaccepted]

/-- Only the number of bytes in a pipe matters for its room. -/
theorem write_ready_same (same : after.down.contents.length = session.down.contents.length) :
    writeReady capacity after slot = writeReady capacity session slot := by
  unfold writeReady Pipe.room
  rw [same]

/-- Reading makes room, so a connection that was writable stays so. -/
theorem write_ready_read {count : Nat} (slot : ConnSlot)
    (read : after.down = session.down.read count) :
    writeReady capacity session slot = true → writeReady capacity after slot = true := by
  have room := session.down.read_room capacity count
  simp only [writeReady, read, Bool.and_eq_true, decide_eq_true_eq]
  exact And.imp_right (Nat.lt_of_lt_of_le · room)

/-- The comparison does not end the client: behind it the next round is encoded, or
the rest is awaited. -/
theorem check_frame_goes_on (endian : Endian) (client : Client) (round : Nat) (acc : List Byte) :
    checkFrame endian client round acc ≠ .finished := by
  unfold checkFrame
  split
  · nofun
  · split
    · split
      · nofun
      · split <;> nofun
    · nofun
    · split <;> nofun

/-- Whatever the comparison finds, the round has no more to pay. -/
theorem check_frame_cost (endian : Endian) (client : Client) (round : Nat) (acc : List Byte) :
    clientCost { client with phase := checkFrame endian client round acc } ≤
      (client.roundTrips - (round + 1)) * (31 * (frame client.payload).length + 1) + 1 := by
  unfold checkFrame
  split
  · exact Nat.zero_le _
  · split
    · split
      · exact Nat.zero_le _
      · split
        · exact Nat.zero_le _
        · exact Nat.le_refl _
    · exact Nat.zero_le _
    · split
      · exact Nat.zero_le _
      · exact Nat.le_refl _

/-- The bytes that a call has sent have no more to pay at the client: what they pay
next they pay in the pipe. -/
theorem send_loop_cost (client : Client) (round : Nat) (wireOut : List Byte) {off count : Nat}
    (within : count ≤ wireOut.length - off) :
    clientCost { client with phase := sendLoop round wireOut (off + count) } + 31 * count ≤
      (client.roundTrips - (round + 1)) * (31 * (frame client.payload).length + 1) +
        31 * (wireOut.length - off) + 1 := by
  unfold sendLoop
  split
  · simp only [clientCost]
    omega
  · simp only [clientCost]
    omega

/-- Closing its socket makes no difference to the server before the end arrives. -/
@[simp] theorem goes_on_readable (session : Session) (phase : EchoClient.Phase) :
    (session.goesOn phase).up.readable = session.up.readable := by
  unfold Session.goesOn
  split
  · exact Pipe.close_readable _
  · rfl

/-- A call of a client leaves its connection as ready as it is, and no finished client
makes one. Reading makes room and writing brings bytes; neither takes anything from
the server. -/
theorem client_call_wakes {endian : Endian} {count : Nat}
    (called : clientCall endian capacity session count = some after) :
    after.up.readable = session.up.readable ∧
    (∀ slot, writeReady capacity session slot = true → writeReady capacity after slot = true) ∧
    session.client.phase ≠ .finished := by
  unfold clientCall at called
  cases standing : session.client.phase with
  | encoding round =>
    simp only [standing] at called
    cases called
    exact ⟨goes_on_readable _ _, fun _ => id, nofun⟩
  | sending round wireOut off =>
    simp only [standing] at called
    split at called
    · obtain ⟨phase, _, rfl⟩ := Option.map_eq_some_iff.mp called
      exact ⟨goes_on_readable _ _, fun _ => id, nofun⟩
    · split at called
      · obtain ⟨phase, _, rfl⟩ := Option.map_eq_some_iff.mp called
        exact ⟨(goes_on_readable _ _).trans (Pipe.write_readable _ _), fun _ => id, nofun⟩
      · cases called
  | receiving round acc =>
    simp only [standing] at called
    split at called
    · split at called
      · obtain ⟨phase, _, rfl⟩ := Option.map_eq_some_iff.mp called
        exact ⟨goes_on_readable _ _, fun slot => write_ready_read slot rfl, nofun⟩
      · cases called
    · split at called
      · obtain ⟨phase, _, rfl⟩ := Option.map_eq_some_iff.mp called
        exact ⟨goes_on_readable _ _, fun _ => id, nofun⟩
      · cases called
  | connecting | finished | aborted | faulted => simp [standing] at called

/-- A call of a client spends. A byte that is sent goes to a cheaper place, one that
is received pays nothing any more, and the end of a round was paid for in advance. -/
theorem client_call_spends {endian : Endian} {count : Nat}
    {handler : Option EchoConnection.Phase} (sound : SessionSound session slot handler)
    (called : clientCall endian capacity session count = some after) :
    sessionCost capacity place after slot < sessionCost capacity place session slot := by
  have stage := (client_call_sound sound called).2.2
  obtain ⟨⟨fits, rounds⟩, _, upward, downward, _, dropped, _, _⟩ := sound
  unfold clientCall at called
  unfold sessionCost
  rw [stage]
  cases standing : session.client.phase with
  | encoding round =>
    simp only [standing] at called rounds
    cases called
    have calm : attention capacity place
        (session.goesOn (encodePass session.client round)) slot =
          attention capacity place session slot :=
      attention_same rfl (goes_on_readable _ _) (write_ready_same rfl)
    rw [calm]
    by_cases more : round < session.client.roundTrips
    · rw [encode_pass_more fits more]
      have left : session.client.roundTrips - round = session.client.roundTrips - (round + 1) + 1 := by
        omega
      simp only [Session.goesOn, clientCost, standing, reduceCtorEq, ↓reduceIte, left, Nat.sub_zero,
        Nat.add_mul, linkCost]
      omega
    · have last : encodePass session.client round = .finished := by
        simp only [encodePass, more, ↓reduceIte]
      have opened : session.up.tail = .open := upward.mpr (by simp [standing])
      rw [last]
      simp only [Session.goesOn, Pipe.close, opened, clientCost, standing, linkCost, endCost,
        ↓reduceIte]
      omega
  | sending round wireOut off =>
    have held : session.stage ≠ .dropped := fun gone => by simpa [standing] using dropped gone
    have opened : session.up.tail = .open := upward.mpr (by simp [standing])
    simp only [standing, held, ↓reduceIte] at called
    split at called
    · rename_i allowed
      obtain ⟨positive, within, _⟩ := allowed
      simp only [sendPass, Nat.ne_of_gt positive, within, ↓reduceIte, Option.map_some] at called
      cases called
      have going : sendLoop round wireOut (off + count) ≠ .finished := by
        unfold sendLoop
        split <;> rintro ⟨⟩
      have handed : ((wireOut.drop off).take count).length = count := by
        rw [List.length_take, List.length_drop]
        omega
      have paid := send_loop_cost session.client round wireOut within
      have calm : attention capacity place ({ session with
          up := session.up.write ((wireOut.drop off).take count) }.goesOn
            (sendLoop round wireOut (off + count))) slot =
          attention capacity place session slot :=
        attention_same rfl ((goes_on_readable _ _).trans (Pipe.write_readable _ _))
          (write_ready_same rfl)
      rw [calm]
      simp only [Session.goesOn, going, ↓reduceIte, linkCost, Pipe.write_in_flight opened,
        Pipe.write_arrived, Pipe.write_tail, List.length_append, handed]
      simp only [clientCost, standing] at paid ⊢
      omega
    · cases called
  | receiving round acc =>
    have held : session.stage ≠ .dropped := fun gone => by simpa [standing] using dropped gone
    simp only [standing] at called
    split at called
    · rename_i arrived
      split at called
      · rename_i allowed
        obtain ⟨positive, within, room⟩ := allowed
        have some_bytes : session.down.arrived.take count ≠ [] := by
          simp [arrived, Nat.ne_of_gt positive]
        have fits : (session.down.arrived.take count).length ≤
            accSize session.client - acc.length := by
          rw [List.length_take]
          omega
        simp only [recvPass, some_bytes, fits, ↓reduceIte, Option.map_some] at called
        cases called
        have going := check_frame_goes_on endian session.client round
          (acc ++ session.down.arrived.take count)
        have paid := check_frame_cost endian session.client round
          (acc ++ session.down.arrived.take count)
        have woken : attention capacity place ({ session with
            down := session.down.read count }.goesOn
              (checkFrame endian session.client round (acc ++ session.down.arrived.take count)))
              slot ≤ attention capacity place session slot + 5 :=
          attention_wakes rfl (fun waiting => (goes_on_readable _ _).trans waiting)
            (write_ready_read slot rfl)
        simp only [Session.goesOn, going, ↓reduceIte, linkCost, Pipe.read_arrived,
          Pipe.read_in_flight, Pipe.read_tail, List.length_drop] at woken ⊢
        simp only [clientCost, standing] at paid ⊢
        omega
      · cases called
    · simp [downward held] at called
  | connecting | finished | aborted | faulted => simp [standing] at called

/-- What arrives at the server has paid for the attention it calls for. -/
theorem upward_spends {up : Pipe Byte} {count : Nat}
    (advanced : session.up.advance count = some up) :
    sessionCost capacity place { session with up } slot <
      sessionCost capacity place session slot := by
  have woken : attention capacity place { session with up } slot ≤
      attention capacity place session slot + 5 :=
    attention_wakes rfl (Pipe.advance_readable advanced) id
  unfold sessionCost
  rcases Pipe.advance_cases advanced with
    ⟨nothing, closed, arrived, flying, ended⟩ | ⟨positive, within, arrived, flying, tail⟩
  · simp only [linkCost, nothing, closed, arrived, flying, ended, endCost]
    omega
  · simp only [linkCost, arrived, flying, tail, List.length_append, List.length_take,
      List.length_drop]
    omega

/-- What arrives at the client calls for nothing at the server. -/
theorem downward_spends {down : Pipe Byte} {count : Nat}
    (advanced : session.down.advance count = some down) :
    sessionCost capacity place { session with down } slot <
      sessionCost capacity place session slot := by
  have calm : attention capacity place { session with down } slot =
      attention capacity place session slot :=
    attention_same rfl rfl (write_ready_same (by rw [Pipe.advance_contents advanced]))
  unfold sessionCost
  rw [calm]
  rcases Pipe.advance_cases advanced with
    ⟨nothing, closed, arrived, flying, ended⟩ | ⟨positive, within, arrived, flying, tail⟩
  · simp only [linkCost, nothing, closed, arrived, flying, ended, endCost]
    omega
  · simp only [linkCost, arrived, flying, tail, List.length_append, List.length_take,
      List.length_drop]
    omega

end Sessions

section Passes

variable {capacity count : Nat} {session after : Session} {slot : ConnSlot}
  {poller : SelectPoller} {completions : Nat} {phase : EchoConnection.Phase}
  {answer : EventLoop.Choice} {served : ServerState} {events : List EchoConnection.Event}

/-- What a pass leaves to pay for the attention of the server. A handler that has
returned may leave a connection that is ready. -/
def leftCost (capacity : Nat) (session : Session) (slot : ConnSlot) : EchoConnection.Phase → Nat
  | .waiting => 5
  | phase => handlerCost capacity session slot phase

/-- A pass spends on its connection, whether it goes on or loses its slot. What it
frees may pay for the waiting that follows. -/
structure PassSpends (capacity : Nat) (session after : Session) (slot : ConnSlot)
    (phase : EchoConnection.Phase) (served : ServerState) : Prop where
  goesOn : serving served.phase = true →
    linkCost after served.slot + leftCost capacity after served.slot served.phase <
      linkCost session slot + handlerCost capacity session slot phase
  closes : served.phase = .peerClosed →
    linkCost after emptySlot < linkCost session slot + handlerCost capacity session slot phase

/-- A frame becomes cheaper when it is copied to the write buffer. -/
theorem decode_spends (endian : Endian) (thenWrite : Bool) :
    PassSpends capacity session session slot (.decoding thenWrite)
      (decodePass endian EventLoop.kMaxPayload ⟨slot, poller, completions, .decoding thenWrite⟩
        thenWrite) := by
  rcases decode_pass_cases endian EventLoop.kMaxPayload
    ⟨slot, poller, completions, .decoding thenWrite⟩ thenWrite with
    ⟨_, same⟩ | ⟨_, same⟩ | ⟨payload, rest, _, shape, same⟩
  · rw [same]
    refine ⟨fun _ => ?_, nofun⟩
    simp only [leftCost, handlerCost]
    split <;> omega
  · rw [same]
    exact ⟨nofun, nofun⟩
  · rw [same]
    refine ⟨fun _ => ?_, nofun⟩
    have length := congrArg List.length shape
    simp only [List.length_append, frame_length] at length
    simp only [leftCost, handlerCost, linkCost, List.length_append, frame_length, length]
    omega

/-- Bytes that have arrived become cheaper when they are received. Where nothing has
arrived the pass ends the loop, which the attention of the handler pays for. -/
theorem take_spends {thenWrite : Bool}
    (sound : SessionSound session slot (some (.receiving thenWrite)))
    (valid : slot.conn.socket.valid = true) (held : session.stage ≠ .dropped)
    (answered : callAnswer capacity session slot (.receiving thenWrite) count =
      some (answer, after))
    (passed : receivePass EventLoop.scratchSize
      ⟨slot, poller, completions, .receiving thenWrite⟩ thenWrite answer.recv =
        some (served, events)) :
    PassSpends capacity session after slot (.receiving thenWrite) served := by
  have room : EventLoop.scratchSize ≠ 0 := by decide
  have opened := sound.downward held
  simp only [callAnswer] at answered
  split at answered
  · rename_i arrived
    split at answered
    · rename_i allowed
      obtain ⟨positive, within, fits⟩ := allowed
      cases answered
      have some_bytes : session.up.arrived.take count ≠ [] := by
        simp [arrived, Nat.ne_of_gt positive]
      have taken : (session.up.arrived.take count).length = count := by
        rw [List.length_take]
        omega
      simp only [receivePass, receiveNonblocking, room, valid, some_bytes, taken, fits, retry,
        RecvAnswer.interrupted, reduceCtorEq, beq_iff_eq, Bool.not_true, Bool.false_eq_true,
        ↓reduceIte] at passed
      cases passed
      refine ⟨fun _ => ?_, (by rintro ⟨⟩)⟩
      have ready : session.up.readable = true := Pipe.readable_iff.mpr (Or.inl arrived)
      simp only [leftCost, handlerCost, ready, ↓reduceIte, linkCost, Pipe.read_arrived,
        Pipe.read_in_flight, Pipe.read_tail, Connection.appendRead, List.length_append, taken,
        List.length_drop]
      omega
    · cases answered
  · rename_i nothing_arrived
    split at answered
    · rename_i ended
      cases answered
      simp only [receivePass, receiveNonblocking, room, valid, retry, RecvAnswer.interrupted,
        reduceCtorEq, beq_iff_eq, Bool.not_true, Bool.false_eq_true, ↓reduceIte] at passed
      cases passed
      refine ⟨(by rintro ⟨⟩), fun _ => ?_⟩
      have ready : session.up.readable = true := Pipe.readable_iff.mpr (Or.inr ended)
      simp only [handlerCost, ready, ↓reduceIte, linkCost, Session.hangUp, Pipe.close, opened,
        emptySlot, List.length_nil, endCost]
      omega
    · rename_i not_ended
      cases answered
      simp only [receivePass, receiveNonblocking, room, valid, retry, RecvAnswer.interrupted,
        reduceCtorEq, beq_iff_eq, RecvAnswer.failed.injEq, Bool.not_true, Bool.false_eq_true,
        true_or, ↓reduceIte] at passed
      cases passed
      refine ⟨fun _ => ?_, by cases thenWrite <;> rintro ⟨⟩⟩
      have unready : session.up.readable = false := by
        rw [← Bool.not_eq_true, Pipe.readable_iff]
        exact not_or.mpr ⟨nothing_arrived, not_ended⟩
      simp only [handlerCost, unready, Bool.false_eq_true, ↓reduceIte]
      cases thenWrite
      · simp only [Bool.false_eq_true, ↓reduceIte, leftCost]
        omega
      · simp only [↓reduceIte, leftCost, handlerCost]
        split <;> omega

/-- Bytes of the write buffer become cheaper when they are sent. A flush that cannot
send returns, and the wait that follows is not called for. -/
theorem flush_spends {caller : Caller}
    (sound : SessionSound session slot (some (.flushing caller)))
    (valid : slot.conn.socket.valid = true) (held : session.stage ≠ .dropped)
    (answered : callAnswer capacity session slot (.flushing caller) count = some (answer, after))
    (passed : flushPass ⟨slot, poller, completions, .flushing caller⟩ caller answer.send =
      some (served, events)) :
    PassSpends capacity session after slot (.flushing caller) served := by
  -- A flush that cannot send returns, and has paid for that.
  have returns : writeReady capacity session slot = false → ∀ conn : Connection,
      conn = slot.conn → ∀ waits : Bool,
      linkCost session ⟨conn, waits⟩ + leftCost capacity session ⟨conn, waits⟩ caller.resume <
        linkCost session slot + handlerCost capacity session slot (.flushing caller) := by
    rintro unready _ rfl waits
    cases caller with
    | readHandler thenWrite =>
      simp only [Caller.resume, leftCost, handlerCost, linkCost]
      omega
    | eventLoop =>
      simp only [Caller.resume, leftCost, handlerCost, linkCost, unready, Bool.false_eq_true,
        ↓reduceIte]
      omega
  simp only [callAnswer] at answered
  split at answered
  · rename_i unsent
    cases answered
    simp only [flushPass, flushWriteNonblocking, unsent, flushed, ↓reduceIte] at passed
    cases passed
    exact ⟨fun _ => returns (by simp [writeReady, unsent]) _ rfl _, by cases caller <;> rintro ⟨⟩⟩
  · rename_i pending
    split at answered
    · rename_i full
      cases answered
      simp only [flushPass, flushWriteNonblocking, pending, valid, retry, SendAnswer.interrupted,
        reduceCtorEq, beq_iff_eq, SendAnswer.failed.injEq, Bool.not_true, Bool.false_eq_true,
        true_or, ↓reduceIte] at passed
      cases passed
      exact ⟨fun _ => returns (by simp [writeReady, full]) _ rfl _, by cases caller <;> rintro ⟨⟩⟩
    · rename_i space
      split at answered
      · rename_i allowed
        obtain ⟨positive, within, _⟩ := allowed
        cases answered
        simp only [flushPass, flushWriteNonblocking, pending, valid, retry,
          SendAnswer.interrupted, reduceCtorEq, beq_iff_eq, Bool.not_true, Bool.false_eq_true,
          gt_iff_lt, Nat.not_lt.mpr within, Nat.ne_of_gt positive,
          Connection.consume_write_within slot.conn count within, bind, Except.bind, pure,
          Except.pure, ↓reduceIte] at passed
        cases passed
        refine ⟨fun _ => ?_, (by rintro ⟨⟩)⟩
        have ready : writeReady capacity session slot = true := by
          simp [writeReady, pending, Nat.pos_of_ne_zero space]
        have moved : (slot.conn.writeBuf.take count).length = count := by
          rw [List.length_take]
          omega
        have left : leftCost capacity
            { session with down := session.down.write (slot.conn.writeBuf.take count) }
            { slot with conn := { slot.conn with writeBuf := slot.conn.writeBuf.drop count } }
            (.flushing caller) ≤ handlerCost capacity session slot (.flushing caller) + 6 := by
          cases caller with
          | readHandler thenWrite => exact Nat.le_add_right _ _
          | eventLoop =>
            simp only [leftCost, handlerCost, ready, ↓reduceIte]
            split <;> omega
        simp only [linkCost, Pipe.write_in_flight (sound.downward held), Pipe.write_arrived,
          Pipe.write_tail, List.length_append, moved, List.length_drop] at left ⊢
        omega
      · cases answered

/-- Every pass of a handler spends. -/
theorem pass_spends {endian : Endian} (sound : SessionSound session slot (some phase))
    (valid : slot.conn.socket.valid = true) (held : session.stage ≠ .dropped)
    (answered : callAnswer capacity session slot phase count = some (answer, after))
    (stepped : EchoConnection.serverStep endian EventLoop.kMaxPayload EventLoop.scratchSize
      ⟨slot, poller, completions, phase⟩ { recv := answer.recv, send := answer.send } =
        some (served, events)) : PassSpends capacity session after slot phase served := by
  cases phase with
  | waiting =>
    cases answered
    cases stepped
    exact ⟨fun _ => Nat.lt_succ_self _, nofun⟩
  | receiving thenWrite => exact take_spends sound valid held answered stepped
  | decoding thenWrite =>
    cases answered
    cases stepped
    exact decode_spends endian thenWrite
  | flushing caller => exact flush_spends sound valid held answered stepped
  | peerClosed | aborted | faulted => cases stepped

end Passes

end TcpServer.EchoService
