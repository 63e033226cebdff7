import TcpServer.ConnectionIsolation

/-!
# The echoed streams of the event loop

What the echo server owes to one connection, it gives to each connection in the loop.
Its peer may end the stream at any time; the kernel reports no other trouble. Then the
bytes of each connection are accounted for, however the connections come, go and take
turns, and between two events nothing that could be decoded is left undecoded.

An oversized header aborts the server, and so all connections: no other peer is to blame.
-/

namespace TcpServer.EventLoop

open EchoConnection EchoConservation FrameCodec FrameDecoder FrameEncoder InterestTracking
  PrefixDecoder SocketIo Transition

/-- The kernel reports the end of the stream, behind any number of interruptions. -/
def endsStream (answers : List RecvAnswer) : Bool :=
  match retry RecvAnswer.interrupted answers with
  | some (.received bytes) => bytes.isEmpty
  | _ => false

/-- The kernel behaves properly, or reports that the peer has closed its side. Both
are what a connection may meet. -/
def behaves (slot : ConnSlot) (phase : Phase) (choice : EchoConnection.Choice) : Bool :=
  cooperates scratchSize ⟨slot, {}, 0, phase⟩ choice ||
    match phase with
    | .receiving _ => endsStream choice.recv
    | _ => false

/-- Where the handlers have left nothing to decode, so that what is buffered is the
front of a frame. -/
def drained : Phase → Bool
  | .waiting | .receiving _ | .flushing .eventLoop => true
  | _ => false

section Alone

variable {endian : Endian} {socket : Socket} {state next : ServerState}
  {history events : List EchoConnection.Event} {choice : EchoConnection.Choice}

/-- The runs of one connection against such a kernel. -/
abbrev BehavedRun (endian : Endian) (socket : Socket) :
    ServerState → List EchoConnection.Event → Prop :=
  Run (EchoConnection.echoServer endian kMaxPayload scratchSize)
    (Permitted fun slot phase choice => behaves slot phase choice = true)
    (EchoConnection.opened socket)

/-- What the kernel does properly does not depend on poller and counter. -/
theorem cooperates_alone (state : ServerState) (choice : EchoConnection.Choice) :
    cooperates scratchSize ⟨state.slot, {}, 0, state.phase⟩ choice =
      cooperates scratchSize state choice := by
  unfold cooperates
  cases state.phase <;> rfl

/-- A connection keeps its valid socket. -/
theorem run_valid {allowed : ServerState → EchoConnection.Choice → Prop}
    (valid : socket.valid = true)
    (run : Run (EchoConnection.echoServer endian kMaxPayload scratchSize) allowed
      (EchoConnection.opened socket) state history) : state.slot.conn.socket.valid = true := by
  refine run_invariant (fun state _ => state.slot.conn.socket.valid = true) valid ?_ run
  intro state _ choice next events _ before _ stepped
  change serverStep endian kMaxPayload scratchSize state choice = _ at stepped
  have effect := server_step_effect stepped
  rw [valid_iff, effect_handle effect, ← valid_iff]
  exact before

/-- The end of the stream closes the connection. -/
theorem ends_stream_closes {thenWrite : Bool} {answers : List RecvAnswer}
    (valid : state.slot.conn.socket.valid = true) (ends : endsStream answers = true)
    (passed : receivePass scratchSize state thenWrite answers = some (next, events)) :
    next.phase = .peerClosed := by
  have answered : retry RecvAnswer.interrupted answers = some (.received []) := by
    unfold endsStream at ends
    split at ends
    · rename_i bytes answered
      rw [answered, List.isEmpty_iff.mp ends]
    · cases ends
  have room : scratchSize ≠ 0 := by decide
  have returned : receiveNonblocking state.slot.conn scratchSize answers =
      some (.error ⟨.closed, "peer closed connection", none⟩, state.slot.conn) := by
    simp [receiveNonblocking, room, valid, answered]
  simp only [receivePass, returned] at passed
  simp only [reduceCtorEq, ↓reduceIte] at passed
  cases passed
  rfl

/-- A connection that is not closed has met nothing but a properly behaving kernel. -/
theorem behaved_served (valid : socket.valid = true) (run : BehavedRun endian socket state history)
    (standing : state.phase ≠ .peerClosed) :
    ServedRun endian kMaxPayload scratchSize socket state history := by
  induction run with
  | start => exact Run.start
  | @step state next history events choice before permitted stepped inductionHypothesis =>
    change serverStep endian kMaxPayload scratchSize state choice = _ at stepped
    have opened : state.phase ≠ .peerClosed := by
      intro closed
      simp [serverStep, closed] at stepped
    refine Run.step (inductionHypothesis opened) ?_ stepped
    cases permitted with
    | inl waiting => simp only [cooperates, waiting]
    | inr behaved =>
      change behaves state.slot state.phase choice = true at behaved
      unfold behaves at behaved
      rw [cooperates_alone, Bool.or_eq_true] at behaved
      cases behaved with
      | inl proper => exact proper
      | inr ended =>
        cases receiving : state.phase with
        | receiving thenWrite =>
          simp only [receiving] at ended
          simp only [serverStep, receiving] at stepped
          exact absurd (ends_stream_closes (run_valid valid before) ended stepped) standing
        | _ => simp [receiving] at ended

/-- Against a properly behaving kernel only an oversized header aborts. The cases are
the phases: receiving and flushing would need a failing call, and a decoded payload is
within the limit of the encoder. -/
theorem proper_aborts {cause : EchoConnection.Abort}
    (valid : state.slot.conn.socket.valid = true) (inCharge : serving state.phase = true)
    (proper : cooperates scratchSize state choice = true)
    (stepped : serverStep endian kMaxPayload scratchSize state choice = some (next, events))
    (aborts : next.phase = .aborted cause) : cause = .oversizedLength := by
  cases standing : state.phase with
  | waiting =>
    simp only [serverStep, standing] at stepped
    cases stepped
    unfold handleEvent at aborts
    split at aborts
    · cases aborts
    · split at aborts
      · cases aborts
      · simp [standing] at aborts
  | receiving thenWrite =>
    simp only [serverStep, standing] at stepped
    simp only [cooperates, standing] at proper
    obtain ⟨result, conn, returned, blocks⟩ :=
      receive_properly (by decide : 0 < scratchSize) valid proper
    simp only [receivePass, returned] at stepped
    rcases receive_cases returned with ⟨error, rfl, rfl⟩ | ⟨_, _, rfl, rfl⟩
    · simp only [blocks error rfl, ↓reduceIte, Option.some.injEq, Prod.mk.injEq] at stepped
      obtain ⟨rfl, rfl⟩ := stepped
      simp only at aborts
      split at aborts <;> cases aborts
    · cases stepped
      cases aborts
  | decoding thenWrite =>
    simp only [serverStep, standing] at stepped
    cases stepped
    rcases decode_pass_cases endian kMaxPayload state thenWrite
      with ⟨_, same⟩ | ⟨_, same⟩ | ⟨payload, rest, _, _, same⟩
    · rw [same] at aborts
      cases aborts
    · rw [same] at aborts
      cases aborts
      rfl
    · rw [same] at aborts
      cases aborts
  | flushing caller =>
    have resumes : caller.resume ≠ .aborted cause := by cases caller <;> simp [Caller.resume]
    simp only [serverStep, standing] at stepped
    obtain ⟨outcome, returned, blocks⟩ :=
      flush_properly valid (flush_answers_proper standing proper)
    simp only [flushPass, returned] at stepped
    rcases flush_cases returned with ⟨empty, rfl⟩ | ⟨_, error, rfl⟩ | ⟨count, positive, _, _, rfl⟩
    · cases stepped
      simp only [flushed, empty, ↓reduceIte] at aborts
      exact absurd aborts resumes
    · simp only [blocks error _ rfl, ↓reduceIte, Option.some.injEq, Prod.mk.injEq] at stepped
      obtain ⟨rfl, rfl⟩ := stepped
      exact absurd aborts resumes
    · have nonzero : count ≠ 0 := Nat.ne_of_gt positive
      simp only [nonzero, ↓reduceIte, Option.some.injEq, Prod.mk.injEq] at stepped
      obtain ⟨rfl, rfl⟩ := stepped
      simp [standing] at aborts
  | peerClosed | aborted _ | faulted _ => simp [standing, serving] at inCharge

/-- The handlers leave a phase in which everything has been decoded with the same
bytes, and come to one only when nothing more can be decoded. -/
theorem step_drained
    (before : drained state.phase = true →
      (frameDecoder endian kMaxPayload).decode state.slot.conn.readBuf = .needMore)
    (stepped : serverStep endian kMaxPayload scratchSize state choice = some (next, events))
    (after : drained next.phase = true) :
    (frameDecoder endian kMaxPayload).decode next.slot.conn.readBuf = .needMore := by
  cases standing : state.phase with
  | waiting =>
    have decoded := before (by rw [standing]; rfl)
    simp only [serverStep, standing] at stepped
    cases stepped
    unfold handleEvent
    split
    · exact decoded
    · split <;> exact decoded
  | receiving thenWrite =>
    have decoded := before (by rw [standing]; rfl)
    simp only [serverStep, standing, receivePass] at stepped
    cases returned : receiveNonblocking state.slot.conn scratchSize choice.recv with
    | none => simp [returned] at stepped
    | some outcome =>
      obtain ⟨result, conn⟩ := outcome
      simp only [returned] at stepped
      rcases receive_cases returned with ⟨error, rfl, rfl⟩ | ⟨_, _, rfl, rfl⟩
      · simp only at stepped
        split at stepped
        · cases stepped
          exact decoded
        · split at stepped
          · cases stepped
            cases after
          · cases stepped
            cases after
      · cases stepped
        cases after
  | decoding thenWrite =>
    simp only [serverStep, standing] at stepped
    cases stepped
    rcases decode_pass_cases endian kMaxPayload state thenWrite
      with ⟨starved, same⟩ | ⟨_, same⟩ | ⟨payload, rest, _, _, same⟩
    · rw [same]
      exact starved
    · rw [same] at after
      cases after
    · rw [same] at after
      cases after
  | flushing caller =>
    simp only [serverStep, standing, flushPass] at stepped
    cases returned : flushWriteNonblocking state.slot.conn choice.send with
    | none => simp [returned] at stepped
    | some outcome =>
      simp only [returned] at stepped
      cases caller with
      | readHandler thenWrite =>
        rcases flush_cases returned with ⟨empty, rfl⟩ | ⟨_, error, rfl⟩ | ⟨count, positive, _, _, rfl⟩
        · cases stepped
          simp [flushed, empty, drained, Caller.resume] at after
        · simp only at stepped
          split at stepped
          · cases stepped
            simp [drained, Caller.resume] at after
          · cases stepped
            cases after
        · have nonzero : count ≠ 0 := Nat.ne_of_gt positive
          simp only [nonzero, ↓reduceIte, Option.some.injEq, Prod.mk.injEq] at stepped
          obtain ⟨rfl, rfl⟩ := stepped
          simp [drained] at after
      | eventLoop =>
        have decoded := before (by rw [standing]; rfl)
        rcases flush_cases returned with ⟨empty, rfl⟩ | ⟨_, error, rfl⟩ | ⟨count, positive, _, _, rfl⟩
        · cases stepped
          simpa [flushed, empty] using decoded
        · simp only at stepped
          split at stepped <;> cases stepped <;> exact decoded
        · have nonzero : count ≠ 0 := Nat.ne_of_gt positive
          simp only [nonzero, ↓reduceIte, Option.some.injEq, Prod.mk.injEq] at stepped
          obtain ⟨rfl, rfl⟩ := stepped
          exact decoded
  | peerClosed | aborted _ | faulted _ => simp [serverStep, standing] at stepped

/-- What holds of a connection alone: nothing is left to decode where it waits, and
only an oversized header has aborted it. -/
theorem run_drained {allowed : ServerState → EchoConnection.Choice → Prop}
    (run : Run (EchoConnection.echoServer endian kMaxPayload scratchSize) allowed
      (EchoConnection.opened socket) state history) (standing : drained state.phase = true) :
    (frameDecoder endian kMaxPayload).decode state.slot.conn.readBuf = .needMore := by
  refine run_invariant (fun state _ => drained state.phase = true →
    (frameDecoder endian kMaxPayload).decode state.slot.conn.readBuf = .needMore) ?_ ?_ run standing
  · intro _
    have starved := try_decode_frame_short (lp64 endian) [] kMaxPayload (by decide)
    simp only [EchoConnection.opened, frameDecoder, starved]
    rfl
  · intro state _ choice next events _ before _ stepped after
    exact step_drained before stepped after

/-- A handler aborts for one reason only, a frame above the limit. -/
theorem served_aborts (valid : socket.valid = true)
    (run : ServedRun endian kMaxPayload scratchSize socket state history)
    {cause : EchoConnection.Abort} (aborts : state.phase = .aborted cause) :
    cause = .oversizedLength := by
  cases run with
  | start => cases aborts
  | @step earlier _ _ _ choice before proper stepped =>
    refine proper_aborts (run_valid valid before) ?_ proper stepped aborts
    change serverStep endian kMaxPayload scratchSize earlier choice = _ at stepped
    cases standing : earlier.phase with
    | waiting | receiving _ | decoding _ | flushing _ => rfl
    | peerClosed | aborted _ | faulted _ => simp [serverStep, standing] at stepped

end Alone

section Streams

variable {endian : Endian} {listener : Socket} {state : State} {history : List Traced}

/-- The kernel hands out closed descriptors and reports no trouble but the ends of
streams, on every connection. -/
abbrev Behaved : State → Choice → Prop :=
  Lawful fun slot phase choice => behaves slot phase choice = true

/-- The bytes of the connections in the loop. In every run of the server, for any
batches of events, with only closed descriptors handed out and no trouble but ends of
streams: for each connection whose own input keeps the cap, whatever the others send,
the accepted bytes, the write buffer and the read buffer together are the bytes
delivered since it was accepted, the first two are whole frames, and where no handler
is at work they are all the frames that can be decoded. A handler aborts only for an
oversized header, and only when the input of some connection holds one. -/
theorem streams_isolated (endian : Endian) (listener : Socket) (state : State)
    (history : List Traced)
    (run : Run (tracedServer endian) Behaved (opened listener) state history) :
    (∀ slot ∈ state.server.slots,
      HeadersWithin kMaxPayload (received (conversation slot.conn.nativeHandle history)) →
      accepted (conversation slot.conn.nativeHandle history) ++ slot.conn.writeBuf ++
          slot.conn.readBuf = received (conversation slot.conn.nativeHandle history) ∧
      (∃ payloads : List (List Byte),
        (∀ payload ∈ payloads, payload.length ≤ payloadCap kMaxPayload) ∧
        accepted (conversation slot.conn.nativeHandle history) ++ slot.conn.writeBuf =
          payloads.flatMap frame) ∧
      (state.place.quiet = true →
        (frameDecoder endian kMaxPayload).decode slot.conn.readBuf = .needMore)) ∧
    ∀ cause, state.place = .handling (.aborted (.handler cause)) →
      cause = .oversizedLength ∧ ∃ slot ∈ state.server.slots,
        ¬ HeadersWithin kMaxPayload (received (conversation slot.conn.nativeHandle history)) := by
  have separate := run_separate run
  refine ⟨?_, ?_⟩
  · intro slot member within
    obtain ⟨phase, stands, valid, single, alone, alike⟩ := separate.alone slot member
    have same : single.slot = slot := alike.slot
    have standing : single.phase ≠ .peerClosed :=
      alike.phase.symm ▸ stands_open separate stands
    have conserves := run_conserves valid (by decide) (behaved_served valid alone standing) within
    obtain ⟨balance, framed, _, _⟩ := conserves
    rw [same] at balance framed
    refine ⟨balance, framed, ?_⟩
    intro quiet
    have waits : single.phase = .waiting := alike.phase.trans ((stands_quiet quiet).mp stands)
    have decoded := run_drained alone (by rw [waits]; rfl)
    rwa [same] at decoded
  · intro cause aborted
    obtain ⟨slot, member, valid, single, alone, alike⟩ := separate.blamed cause aborted
    have standing : single.phase = .aborted cause := alike.phase
    have served := behaved_served valid alone (by simp [standing])
    refine ⟨served_aborts valid served standing, slot, member, ?_⟩
    intro within
    have inCharge := (run_conserves valid (by decide) served within).serving
    simp [standing, serving] at inCharge

/-- The condition on the kernel, for a choice that is replayed. -/
def behaved (state : State) (choice : Choice) : Bool :=
  handsOutClosed state choice &&
    match state.place with
    | .handling (.serving index _ phase _) =>
        (state.server.slots[index]?).all fun slot =>
          behaves slot phase { recv := choice.recv, send := choice.send }
    | _ => true

/-- The check of the condition on the kernel is right. -/
theorem behaved_sound (state : State) (choice : Choice) (passed : behaved state choice = true) :
    Behaved state choice := by
  obtain ⟨closed, calls⟩ := (Bool.and_eq_true _ _).mp passed
  refine ⟨hands_out_closed_sound state choice closed, ?_⟩
  intro index socket phase rest slot serves found
  simpa only [serves, found, Option.all_some] using calls

/-- The headers of a single frame are within the cap. -/
theorem one_frame_within : HeadersWithin kMaxPayload [0, 0, 0, 1, 42] := by
  intro payloads b0 b1 b2 b3 rest _ shape
  cases payloads with
  | nil =>
    simp only [List.flatMap_nil, List.nil_append, List.cons.injEq] at shape
    obtain ⟨rfl, rfl, rfl, rfl, _⟩ := shape
    decide
  | cons payload others =>
    have size := congrArg List.length shape
    simp only [List.flatMap_cons, List.length_append, List.length_cons, List.length_nil,
      frame_length] at size
    omega

/-- The second connection on a descriptor is in the middle of its echo. -/
theorem streams_isolated_recycled :
    ∃ (state : State) (history : List Traced),
      Run (tracedServer .little) Behaved (opened ⟨3⟩) state history ∧
        ∃ slot ∈ state.server.slots, slot.conn.nativeHandle = 5 ∧
          accepted (conversation 5 history) ++ slot.conn.writeBuf ++ slot.conn.readBuf =
            [0, 0, 0, 1, 42] := by
  obtain ⟨state, history, run, observed⟩ :=
    replay_exhibits_under (tracedServer .little) (opened ⟨3⟩) behaved behaved_sound
      (fun final => decide (5 ∈ handles final.1.server.slots ∧
        received (conversation 5 final.2) = [0, 0, 0, 1, 42])) recycledEcho (by decide)
  obtain ⟨present, delivered⟩ := of_decide_eq_true observed
  obtain ⟨slot, member, handle⟩ := mem_handles.mp present
  have within : HeadersWithin kMaxPayload
      (received (conversation slot.conn.nativeHandle history)) := by
    rw [handle, delivered]
    exact one_frame_within
  have isolated := (streams_isolated .little ⟨3⟩ state history run).1 slot member within
  have balance := isolated.1
  rw [handle, delivered] at balance
  exact ⟨state, history, run, slot, member, handle, balance⟩

end Streams

end TcpServer.EventLoop
