import TcpServer.AtomicObjects
import TcpServer.SlotTable

/-!
# The conversations of the event loop

The bytes that the kernel delivers and accepts are recorded with their descriptor
beside the events of the loop. They are read from the handlers' own passes. What has
passed over a descriptor since it was last handed out is the conversation of the
connection that has it now.

The handlers look at nothing but their connection: the same pass on the same slot
does the same, whatever else the poller and the counter hold.
-/

namespace TcpServer.EventLoop

open EchoConnection Acceptor FrameCodec FrameDecoder FrameEncoder InterestTracking Registry SocketIo
  Transition AtomicObjects

/-- What passes over one connection, with the descriptor that it passes over. -/
structure Exchange where
  socket : Int
  event : EchoConnection.Event
deriving DecidableEq, Repr

/-- An exchange, or what the loop does with connections. A history of both tells which
connection a descriptor was at the time. -/
abbrev Traced := Exchange ⊕ Event

/-- The calls of the handler that the step of the loop runs. A step that runs no
handler exchanges nothing. -/
def handlerEvents (endian : Endian) (state : State) (choice : Choice) : List Exchange :=
  match state.place with
  | .handling (.serving index _ phase _) =>
      match state.server.slots[index]? with
      | none => []
      | some slot =>
          match serverStep endian kMaxPayload scratchSize
              ⟨slot, state.server.poller, state.server.completions, phase⟩
              { recv := choice.recv, send := choice.send } with
          | none => []
          | some (_, events) => events.map (Exchange.mk slot.conn.nativeHandle)
  | _ => []

/-- The same loop with the longer history. The steps are those of the loop, and so are
its states. -/
def tracedServer (endian : Endian) : System State Choice Traced :=
  marked (echoServer endian) (handlerEvents endian)

/-- What one more event adds to the conversation on a descriptor. A connection that
is added starts with nothing said. -/
def converse (socket : Int) (said : List EchoConnection.Event) :
    Traced → List EchoConnection.Event
  | .inr (.added other) => if other = socket then [] else said
  | .inr _ => said
  | .inl ⟨other, event⟩ => if other = socket then said ++ [event] else said

/-- What has passed over the connection that has this descriptor now. A new connection
under a number starts an empty one. -/
def conversation (socket : Int) (history : List Traced) : List EchoConnection.Event :=
  history.foldl (converse socket) []

section Conversations

variable {socket : Int} {history : List Traced}

/-- A conversation goes on from where it was. -/
theorem conversation_append (socket : Int) (history events : List Traced) :
    conversation socket (history ++ events) =
      events.foldl (converse socket) (conversation socket history) := by
  simp [conversation, List.foldl_append]

/-- What is said on a descriptor is added to its conversation. -/
theorem conversation_own (socket : Int) (history : List Traced)
    (said : List EchoConnection.Event) :
    conversation socket (history ++ (said.map (Exchange.mk socket)).map .inl) =
      conversation socket history ++ said := by
  rw [conversation_append]
  induction said using List.reverseRecOn with
  | nil => simp
  | append_singleton earlier event inductionHypothesis =>
    rw [List.map_append, List.map_append, List.foldl_append, inductionHypothesis]
    simp [converse]

/-- What is said on a descriptor is nothing to the others. -/
theorem conversation_other {other : Int} (different : other ≠ socket)
    (said : List EchoConnection.Event) :
    conversation socket (history ++ (said.map (Exchange.mk other)).map .inl) =
      conversation socket history := by
  rw [conversation_append]
  induction said with
  | nil => rfl
  | cons event later inductionHypothesis =>
    simp only [List.map_cons, List.foldl_cons, converse, different, ↓reduceIte]
    exact inductionHypothesis

/-- The loop's own events leave the conversations alone but for that of the
descriptor that is added. -/
theorem conversation_loop {events : List Event} (old : .added socket ∉ events) :
    conversation socket (history ++ events.map .inr) = conversation socket history := by
  rw [conversation_append]
  induction events with
  | nil => rfl
  | cons event later inductionHypothesis =>
    rw [List.mem_cons, not_or] at old
    have same (said : List EchoConnection.Event) : converse socket said (.inr event) = said := by
      cases event with
      | added other =>
        have different : other ≠ socket := fun equal => old.1 (by rw [equal])
        simp only [converse, different, ↓reduceIte]
      | accepted _ | removed _ => rfl
    rw [List.map_cons, List.foldl_cons, same]
    exact inductionHypothesis old.2

/-- A connection that is added has said nothing yet. -/
theorem conversation_added (socket : Int) (history : List Traced) (events : List Event) :
    conversation socket (history ++ (events ++ [Event.added socket]).map .inr) = [] := by
  rw [List.map_append, ← List.append_assoc, conversation_append]
  simp [converse]

end Conversations

/-- A connection in the loop and the same connection alone: slot and phase are the
same, and so is its own entry of the interest map. -/
structure Alike (state single : ServerState) : Prop where
  slot : single.slot = state.slot
  phase : single.phase = state.phase
  interest : single.poller.interest.lookup state.slot.conn.nativeHandle =
    state.poller.interest.lookup state.slot.conn.nativeHandle

section Passes

variable {endian : Endian} {maxPayloadBytes : UInt64} {scratchSize : Nat}
  {state next single : ServerState} {events : List EchoConnection.Event}

/-- Two pollers that agree on a descriptor still do after the same upsert. -/
theorem upsert_agree {poller other : SelectPoller} {socket : Int} (mask : EventMask)
    (agree : other.interest.lookup socket = poller.interest.lookup socket) :
    (other.upsert socket mask).2.interest.lookup socket =
      (poller.upsert socket mask).2.interest.lookup socket := by
  unfold SelectPoller.upsert
  split
  · exact agree
  · simp only [AList.lookup_insert]

/-- Two pollers agree on a descriptor that both have erased. -/
theorem erase_agree (poller other : SelectPoller) (socket : Int) :
    (other.erase socket).2.interest.lookup socket =
      (poller.erase socket).2.interest.lookup socket := by
  simp only [SelectPoller.erase, AList.lookup_erase]

/-- A pass of the receive loop looks at nothing but the connection: whatever the
poller and the counter are, it does the same to the slot and tells the same. -/
theorem receive_pass_alone {thenWrite : Bool} {answers : List RecvAnswer}
    (alike : Alike state single)
    (passed : receivePass scratchSize state thenWrite answers = some (next, events)) :
    ∃ after, receivePass scratchSize single thenWrite answers = some (after, events) ∧
      Alike next after := by
  obtain ⟨_, poller, completions, _⟩ := state
  obtain ⟨slot, other, counted, phase⟩ := single
  obtain ⟨rfl, rfl, agree⟩ := alike
  unfold receivePass at passed ⊢
  cases returned : receiveNonblocking slot.conn scratchSize answers with
  | none => simp [returned] at passed
  | some outcome =>
    obtain ⟨result, conn⟩ := outcome
    cases receive_cases returned with
    | inl failed =>
      obtain ⟨error, rfl, rfl⟩ := failed
      simp only [returned] at passed ⊢
      split at passed
      · rename_i blocks
        cases passed
        simp only [if_pos blocks]
        exact ⟨_, rfl, rfl, rfl, agree⟩
      · rename_i failing
        simp only [if_neg failing]
        split at passed
        · rename_i closing
          cases passed
          simp only [if_pos closing]
          exact ⟨_, rfl, rfl, rfl, erase_agree poller other slot.conn.nativeHandle⟩
        · rename_i unknown
          cases passed
          simp only [if_neg unknown]
          exact ⟨_, rfl, rfl, rfl, agree⟩
    | inr delivered =>
      obtain ⟨_, _, rfl, rfl⟩ := delivered
      simp only [returned] at passed ⊢
      cases passed
      exact ⟨_, rfl, rfl, rfl, agree⟩

/-- Consuming leaves the connection on its descriptor. -/
theorem consume_read_handle {conn after : Connection} {byteCount : Nat}
    (consumed : conn.consumeRead byteCount = .ok after) :
    after.nativeHandle = conn.nativeHandle := by
  unfold Connection.consumeRead at consumed
  cases left : Connection.consume conn.readBuf byteCount with
  | error fault =>
    rw [left] at consumed
    cases consumed
  | ok buffer =>
    rw [left] at consumed
    cases consumed
    rfl

/-- So does a pass of the decode loop. The interest map is changed, but only for this
descriptor, and it is not read. -/
theorem decode_pass_alone {thenWrite : Bool} (alike : Alike state single) :
    Alike (decodePass endian maxPayloadBytes state thenWrite)
      (decodePass endian maxPayloadBytes single thenWrite) := by
  obtain ⟨_, poller, completions, _⟩ := state
  obtain ⟨slot, other, counted, phase⟩ := single
  obtain ⟨rfl, rfl, agree⟩ := alike
  unfold decodePass
  simp only
  cases tryDecodeFrame (lp64 endian) slot.conn.readBuf maxPayloadBytes with
  | error fault => exact ⟨rfl, rfl, agree⟩
  | ok dec =>
    simp only
    cases dec.status with
    | incomplete | oversizedLength => exact ⟨rfl, rfl, agree⟩
    | complete =>
      simp only
      cases Dispatcher.echoDispatch dec.payload with
      | error error => exact ⟨rfl, rfl, agree⟩
      | ok out =>
        simp only
        cases appendEncodedFrame slot.conn.writeBuf out maxPayloadBytes with
        | error fault => exact ⟨rfl, rfl, agree⟩
        | ok encoded =>
          obtain ⟨result, writeBuf⟩ := encoded
          cases result with
          | error error => exact ⟨rfl, rfl, agree⟩
          | ok done =>
            simp only
            cases consumed : Connection.consumeRead { slot.conn with writeBuf } dec.consumedBytes with
            | error fault => exact ⟨rfl, rfl, agree⟩
            | ok conn =>
              refine ⟨rfl, rfl, ?_⟩
              have kept := consume_read_handle consumed
              change conn.nativeHandle = slot.conn.nativeHandle at kept
              simp only
              rw [kept]
              exact upsert_agree _ agree

/-- A pass of the flush loop looks at nothing but the connection. The count of
completions goes up, but nothing depends on it. -/
theorem flush_pass_alone {caller : Caller} {answers : List SendAnswer}
    (alike : Alike state single)
    (passed : flushPass state caller answers = some (next, events)) :
    ∃ after, flushPass single caller answers = some (after, events) ∧ Alike next after := by
  obtain ⟨_, poller, completions, _⟩ := state
  obtain ⟨slot, other, counted, phase⟩ := single
  obtain ⟨rfl, rfl, agree⟩ := alike
  unfold flushPass at passed ⊢
  cases returned : flushWriteNonblocking slot.conn answers with
  | none => simp [returned] at passed
  | some outcome =>
    rcases flush_cases returned with ⟨empty, rfl⟩ | ⟨pending, error, rfl⟩ |
      ⟨count, positive, _, _, rfl⟩
    · simp only [returned, ↓reduceIte, flushed, empty] at passed ⊢
      cases passed
      exact ⟨_, rfl, rfl, rfl, upsert_agree _ agree⟩
    · simp only [returned] at passed ⊢
      split at passed
      · rename_i blocks
        cases passed
        simp only [if_pos blocks]
        exact ⟨_, rfl, rfl, rfl, upsert_agree _ agree⟩
      · rename_i failing
        cases passed
        simp only [if_neg failing]
        exact ⟨_, rfl, rfl, rfl, agree⟩
    · have nonzero : count ≠ 0 := Nat.ne_of_gt positive
      simp only [returned, nonzero, ↓reduceIte] at passed ⊢
      cases passed
      exact ⟨_, rfl, rfl, rfl, agree⟩

/-- What the handlers do with a connection does not depend on the loop around it. -/
theorem server_step_alone {choice : EchoConnection.Choice} (alike : Alike state single)
    (stepped : serverStep endian maxPayloadBytes scratchSize state choice = some (next, events)) :
    ∃ after, serverStep endian maxPayloadBytes scratchSize single choice = some (after, events) ∧
      Alike next after := by
  unfold serverStep at stepped ⊢
  rw [alike.phase]
  cases standing : state.phase with
  | waiting =>
    simp only [standing] at stepped ⊢
    cases stepped
    refine ⟨_, rfl, ?_⟩
    unfold handleEvent
    split
    · exact ⟨alike.slot, rfl, alike.interest⟩
    · split
      · exact ⟨alike.slot, rfl, alike.interest⟩
      · exact alike
  | receiving thenWrite =>
    simp only [standing] at stepped ⊢
    exact receive_pass_alone alike stepped
  | decoding thenWrite =>
    simp only [standing] at stepped ⊢
    cases stepped
    exact ⟨_, rfl, decode_pass_alone alike⟩
  | flushing caller =>
    simp only [standing] at stepped ⊢
    exact flush_pass_alone alike stepped
  | peerClosed | aborted _ | faulted _ => simp [standing] at stepped

/-- A pass of a handler changes the interest in no other descriptor. -/
theorem effect_elsewhere (effect : Effect state next) {socket : Int}
    (other : socket ≠ state.slot.conn.nativeHandle) :
    next.poller.interest.lookup socket = state.poller.interest.lookup socket := by
  have upserts (mask : EventMask) :
      (state.upsert mask).interest.lookup socket = state.poller.interest.lookup socket := by
    unfold ServerState.upsert SelectPoller.upsert
    split
    · rfl
    · exact AList.lookup_insert_ne other
  cases effect with
  | kept _ _ _ _ poller | sent _ _ _ poller | aborted _ _ _ poller => rw [poller]
  | queued _ _ _ _ poller | updated _ _ _ poller => rw [poller, upserts]
  | closed _ _ _ poller =>
    rw [poller]
    exact AList.lookup_erase_ne other

/-- No pass of a handler fails an assert. -/
theorem effect_not_faulted (effect : Effect state next) (fault : Fault) :
    next.phase ≠ .faulted fault := by
  intro faulted
  cases effect with
  | kept _ after => simp [faulted, settled, flushing] at after
  | queued _ _ after | closed _ after | aborted _ after => simp [faulted] at after
  | sent _ after => simp [faulted, flushing] at after
  | updated _ after => simp [faulted, settled] at after

end Passes

/-- Where the loop goes on behind a pass of a handler: with the same handler, with the
next event, or nowhere. -/
def onward (server : Server) (index : Nat) (socket : Int) (before after : Phase)
    (rest : List PollEvent) : Handling :=
  match after with
  | .waiting | .peerClosed => .dispatching rest
  | .aborted cause => .aborted (.handler cause)
  | .faulted fault => .faulted fault
  | _ =>
      if leavesReadHandler before after then writeEvent server socket rest
      else .serving index socket after rest

/-- The server behind a pass of a handler; a connection closed by its peer is gone,
and the last slot has its place. -/
def leftBehind (server : Server) (index : Nat) (served : ServerState) : Server :=
  match served.phase with
  | .peerClosed => { stored server index served with
      slots := swapPop (stored server index served).slots index }
  | _ => stored server index served

/-- A pass of a handler is a pass on the slot that it has found: the loop stores the
slot back, or removes it when the connection has ended. -/
theorem serve_pass_served {endian : Endian} {server next : Server} {index : Nat} {socket : Int}
    {phase : Phase} {rest : List PollEvent} {choice : Choice} {place : Handling}
    {events : List Event} {slot : ConnSlot} (found : server.slots[index]? = some slot)
    (passed : servePass endian kMaxPayload scratchSize server index socket phase rest choice =
      some (next, place, events)) :
    ∃ served said,
      serverStep endian kMaxPayload scratchSize ⟨slot, server.poller, server.completions, phase⟩
        { recv := choice.recv, send := choice.send } = some (served, said) ∧
      next = leftBehind server index served ∧
      place = onward (stored server index served) index socket phase served.phase rest ∧
      ∀ handle, .added handle ∉ events := by
  simp only [servePass, found] at passed
  cases stepped : serverStep endian kMaxPayload scratchSize
      ⟨slot, server.poller, server.completions, phase⟩
      { recv := choice.recv, send := choice.send } with
  | none => simp [stepped] at passed
  | some result =>
    obtain ⟨served, said⟩ := result
    refine ⟨served, said, rfl, ?_⟩
    simp only [stepped] at passed
    cases after : served.phase with
    | peerClosed =>
      obtain ⟨inside, _⟩ := List.getElem?_eq_some_iff.mp found
      simp only [after, removeSlot, List.getElem?_set_self inside,
        ← effect_closed (server_step_effect stepped) after] at passed
      cases passed
      exact ⟨by simp only [leftBehind, after]; rfl, rfl, by simp⟩
    | waiting | aborted cause | faulted fault =>
      simp only [after] at passed
      cases passed
      exact ⟨by simp only [leftBehind, after]; rfl, rfl, by simp⟩
    | receiving thenWrite | decoding thenWrite | flushing caller =>
      simp only [after] at passed
      split at passed
      · rename_i leaving
        cases passed
        exact ⟨by simp only [leftBehind, after]; rfl,
          by simp only [onward, leaving, ↓reduceIte]; rfl, by simp⟩
      · rename_i staying
        cases passed
        exact ⟨by simp only [leftBehind, after]; rfl,
          by simp only [onward, staying, Bool.false_eq_true, ↓reduceIte], by simp⟩

end TcpServer.EventLoop
