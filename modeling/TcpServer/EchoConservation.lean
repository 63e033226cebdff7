import TcpServer.EchoConnection

/-!
# Conservation of an echoed stream

One connection of the echo server keeps an account of every byte: what the
kernel has accepted, what waits to be sent and what waits to be decoded is, in
this order, what the kernel has delivered. The first two parts are whole frames.
The account is proved for each pass of each loop and carried along every run.

The inner loops end without help from the kernel: each pass moves bytes from the
read buffer to the write buffer or out of the write buffer.
-/

namespace TcpServer.EchoConservation

open EchoConnection FrameDecoder FrameEncoder FrameCodec PrefixDecoder SocketIo Transition

/-- No header of the input exceeds the cap: wherever frames within the cap are
followed by four more bytes, these declare a length within the cap. -/
def HeadersWithin (maxPayloadBytes : UInt64) (input : List Byte) : Prop :=
  ∀ (payloads : List (List Byte)) (b0 b1 b2 b3 : Byte) (rest : List Byte),
    (∀ payload ∈ payloads, payload.length ≤ payloadCap maxPayloadBytes) →
    input = payloads.flatMap frame ++ b0 :: b1 :: b2 :: b3 :: rest →
    declaredLength b0 b1 b2 b3 ≤ payloadCap maxPayloadBytes

/-- The condition is inherited by what was received earlier. -/
theorem headers_within_prefix {maxPayloadBytes : UInt64} {input more : List Byte}
    (within : HeadersWithin maxPayloadBytes (input ++ more)) :
    HeadersWithin maxPayloadBytes input := by
  intro payloads b0 b1 b2 b3 rest fits shape
  refine within payloads b0 b1 b2 b3 (rest ++ more) fits ?_
  rw [shape]
  simp

/-- The handlers are still in charge of the connection: its peer has not closed it,
and nothing has gone wrong. -/
def serving : Phase → Bool
  | .waiting | .receiving _ | .decoding _ | .flushing _ => true
  | .peerClosed | .aborted _ | .faulted _ => false

/-- The account of one connection: bytes that came in are in a buffer or have gone
out, in whole frames on the way out. -/
structure Conserves (maxPayloadBytes : UInt64) (state : ServerState) (history : List Event) :
    Prop where
  balance : accepted history ++ state.slot.conn.writeBuf ++ state.slot.conn.readBuf =
    received history
  framed : ∃ payloads : List (List Byte),
    (∀ payload ∈ payloads, payload.length ≤ payloadCap maxPayloadBytes) ∧
      accepted history ++ state.slot.conn.writeBuf = payloads.flatMap frame
  valid : state.slot.conn.socket.valid = true
  serving : serving state.phase = true

/-- The kernel answers properly to the call that the next step makes, if any. It
delivers and takes at least a byte, or would block. -/
def cooperates (scratchSize : Nat) (state : ServerState) (choice : Choice) : Bool :=
  match state.phase with
  | .receiving _ => receivesProperly scratchSize choice.recv
  | .flushing _ => state.slot.conn.writeBuf.isEmpty ||
      sendsProperly state.slot.conn.writeBuf.length choice.send
  | _ => true

/-- The runs against a kernel that behaves properly all along. -/
abbrev ServedRun (endian : Endian) (maxPayloadBytes : UInt64) (scratchSize : Nat)
    (socket : Socket) : ServerState → List Event → Prop :=
  Run (echoServer endian maxPayloadBytes scratchSize)
    (fun state choice => cooperates scratchSize state choice = true) (opened socket)

variable {endian : Endian} {maxPayloadBytes : UInt64} {scratchSize : Nat}

/-- What was received is told event by event, so the bytes of two pieces of a history
are those of one behind those of the other. -/
@[simp] theorem received_append (before after : List Event) :
    received (before ++ after) = received before ++ received after := by
  simp [received]

/-- What the kernel has accepted for sending is told event by event in the same way.
-/
@[simp] theorem accepted_append (before after : List Event) :
    accepted (before ++ after) = accepted before ++ accepted after := by
  simp [accepted]

/-- All that one pass through the decode loop can do. A decoded frame is encoded
again as it was, so it moves unchanged from the front of the read buffer to the
end of the write buffer. -/
theorem decode_pass_cases (endian : Endian) (maxPayloadBytes : UInt64) (state : ServerState)
    (thenWrite : Bool) :
    ((frameDecoder endian maxPayloadBytes).decode state.slot.conn.readBuf = .needMore ∧
      decodePass endian maxPayloadBytes state thenWrite =
        { state with phase := .receiving thenWrite }) ∨
    ((frameDecoder endian maxPayloadBytes).decode state.slot.conn.readBuf = .reject ∧
      decodePass endian maxPayloadBytes state thenWrite =
        { state with phase := .aborted .oversizedLength }) ∨
    (∃ payload rest, payload.length ≤ payloadCap maxPayloadBytes ∧
      state.slot.conn.readBuf = frame payload ++ rest ∧
      decodePass endian maxPayloadBytes state thenWrite =
        { state with
          slot := {
            conn := { state.slot.conn with
              writeBuf := state.slot.conn.writeBuf ++ frame payload
              readBuf := rest }
            awaitingReplyFlush := true }
          poller := state.upsert (.read ||| .write)
          phase := .flushing (.readHandler thenWrite) }) := by
  obtain ⟨⟨status, consumed, payload⟩, defined⟩ :=
    try_decode_frame_defined endian state.slot.conn.readBuf maxPayloadBytes
  cases status with
  | incomplete =>
    refine Or.inl ⟨?_, ?_⟩
    · change verdictOf _ = _
      rw [defined]
      rfl
    · simp only [decodePass, defined]
  | oversizedLength =>
    refine Or.inr (Or.inl ⟨?_, ?_⟩)
    · change verdictOf _ = _
      rw [defined]
      rfl
    · simp only [decodePass, defined]
  | complete =>
    obtain ⟨fits, consumes, rest, shape⟩ := complete_frame _ _ _ _ _ defined
    have behind : state.slot.conn.readBuf.drop consumed = rest := by
      rw [shape, consumes, ← frame_length payload]
      exact List.drop_left
    have within : consumed ≤ state.slot.conn.readBuf.length := by
      rw [shape, List.length_append, frame_length]
      omega
    refine Or.inr (Or.inr ⟨payload, rest, fits, shape, ?_⟩)
    simp only [decodePass, defined, Dispatcher.echoDispatch, append_encoded_frame_exact, fits,
      ↓reduceIte]
    rw [Connection.consume_read_within { state.slot.conn with
      writeBuf := state.slot.conn.writeBuf ++ frame payload } consumed within]
    simp only [behind]

/-- A rejected buffer starts with a header that declares too much. -/
theorem rejected_header {buffer : List Byte}
    (rejected : (frameDecoder endian maxPayloadBytes).decode buffer = .reject) :
    ∃ b0 b1 b2 b3 rest, buffer = b0 :: b1 :: b2 :: b3 :: rest ∧
      payloadCap maxPayloadBytes < declaredLength b0 b1 b2 b3 := by
  have decoded := verdict_reject rejected
  match buffer with
  | [] | [_] | [_, _] | [_, _, _] =>
    rw [try_decode_frame_short _ _ _ (by simp)] at decoded
    simp at decoded
  | b0 :: b1 :: b2 :: b3 :: body =>
    rw [try_decode_frame_header (lp64 endian) (lp64_wide endian)] at decoded
    split at decoded
    · rename_i exceeds
      exact ⟨b0, b1, b2, b3, body, rfl, exceeds⟩
    · split at decoded <;> simp at decoded

/-- One pass through the decode loop keeps the account, as long as no header of
the input exceeds the cap. -/
theorem decode_pass_conserves {state : ServerState} {history : List Event} (thenWrite : Bool)
    (conserves : Conserves maxPayloadBytes state history)
    (within : HeadersWithin maxPayloadBytes (received history)) :
    Conserves maxPayloadBytes (decodePass endian maxPayloadBytes state thenWrite) history := by
  obtain ⟨balance, ⟨payloads, fits, framed⟩, valid, _⟩ := conserves
  rcases decode_pass_cases endian maxPayloadBytes state thenWrite
    with ⟨_, same⟩ | ⟨rejected, _⟩ | ⟨payload, rest, small, shape, same⟩
  · rw [same]
    exact ⟨balance, ⟨payloads, fits, framed⟩, valid, rfl⟩
  · obtain ⟨b0, b1, b2, b3, rest, shape, exceeds⟩ := rejected_header rejected
    rw [framed, shape] at balance
    have declared := within payloads b0 b1 b2 b3 rest fits balance.symm
    omega
  · rw [same]
    refine ⟨?_, ⟨payloads ++ [payload], ?_, ?_⟩, valid, rfl⟩
    · rw [← balance, shape]
      simp
    · intro other member
      rcases List.mem_append.mp member with earlier | last
      · exact fits other earlier
      · rw [List.mem_singleton.mp last]
        exact small
    · rw [List.flatMap_append, ← framed]
      simp

/-- One pass through the receive loop keeps the account: what it appends to the
read buffer is what the kernel delivered. -/
theorem receive_pass_conserves {state next : ServerState} {history events : List Event}
    {thenWrite : Bool} {answers : List RecvAnswer}
    (conserves : Conserves maxPayloadBytes state history) (room : 0 < scratchSize)
    (proper : receivesProperly scratchSize answers = true)
    (passed : receivePass scratchSize state thenWrite answers = some (next, events)) :
    Conserves maxPayloadBytes next (history ++ events) := by
  obtain ⟨balance, framed, valid, _⟩ := conserves
  obtain ⟨result, after, returned, blocks⟩ := receive_properly room valid proper
  simp only [receivePass, returned] at passed
  rcases receive_cases returned with ⟨error, rfl, rfl⟩ | ⟨_, _, rfl, rfl⟩
  · simp only [blocks error rfl, ↓reduceIte, Option.some.injEq, Prod.mk.injEq] at passed
    obtain ⟨rfl, rfl⟩ := passed
    rw [List.append_nil]
    refine ⟨balance, framed, valid, ?_⟩
    cases thenWrite <;> rfl
  · cases passed
    refine ⟨?_, ?_, valid, rfl⟩
    · rw [accepted_append, received_append, ← balance]
      simp [Connection.appendRead, accepted, received]
    · rw [accepted_append]
      simpa [Connection.appendRead, accepted] using framed

/-- One pass through the flush loop keeps the account: what it removes from the
write buffer is what the kernel accepted. -/
theorem flush_pass_conserves {state next : ServerState} {history events : List Event}
    {caller : Caller} {answers : List SendAnswer}
    (conserves : Conserves maxPayloadBytes state history)
    (standing : state.phase = .flushing caller)
    (proper : state.slot.conn.writeBuf ≠ [] →
      sendsProperly state.slot.conn.writeBuf.length answers = true)
    (passed : flushPass state caller answers = some (next, events)) :
    Conserves maxPayloadBytes next (history ++ events) := by
  obtain ⟨balance, framed, valid, _⟩ := conserves
  have resumes : serving caller.resume = true := by cases caller <;> rfl
  obtain ⟨outcome, returned, blocks⟩ := flush_properly valid proper
  simp only [flushPass, returned] at passed
  rcases flush_cases returned with ⟨empty, rfl⟩ | ⟨_, error, rfl⟩ | ⟨count, positive, _, taken, rfl⟩
  · cases passed
    rw [List.append_nil]
    simp only [flushed, empty, ↓reduceIte]
    exact ⟨balance, framed, valid, resumes⟩
  · simp only [blocks error _ rfl, ↓reduceIte, Option.some.injEq, Prod.mk.injEq] at passed
    obtain ⟨rfl, rfl⟩ := passed
    rw [List.append_nil]
    exact ⟨balance, framed, valid, resumes⟩
  · have nonzero : count ≠ 0 := Nat.ne_of_gt positive
    simp only [nonzero, ↓reduceIte, Option.some.injEq, Prod.mk.injEq] at passed
    obtain ⟨rfl, rfl⟩ := passed
    have moved :
        accepted (history ++ [.accepted (acceptedBytes state.slot.conn.writeBuf answers)]) ++
          state.slot.conn.writeBuf.drop count = accepted history ++ state.slot.conn.writeBuf := by
      rw [accepted_append, List.append_assoc, taken]
      simp [accepted]
    refine ⟨?_, ?_, valid, ?_⟩
    · simp only
      rw [moved, balance, received_append]
      simp [received]
    · simpa only [moved] using framed
    · simp only [standing]
      rfl

/-- In front of a send call, a cooperating kernel answers it properly. -/
theorem flush_answers_proper {state : ServerState} {choice : Choice} {caller : Caller}
    (standing : state.phase = .flushing caller)
    (cooperative : cooperates scratchSize state choice = true)
    (pending : state.slot.conn.writeBuf ≠ []) :
    sendsProperly state.slot.conn.writeBuf.length choice.send = true := by
  simpa [cooperates, standing, pending] using cooperative

/-- One step of the server keeps the account. Receiving moves bytes into the read
buffer, decoding turns a frame of it into a reply, and flushing moves bytes out; each
pass has its own lemma. -/
theorem server_step_conserves {state next : ServerState} {history events : List Event}
    {choice : Choice} (conserves : Conserves maxPayloadBytes state history)
    (within : HeadersWithin maxPayloadBytes (received history)) (room : 0 < scratchSize)
    (cooperative : cooperates scratchSize state choice = true)
    (stepped : serverStep endian maxPayloadBytes scratchSize state choice = some (next, events)) :
    Conserves maxPayloadBytes next (history ++ events) := by
  unfold serverStep at stepped
  split at stepped
  · rename_i standing
    cases stepped
    rw [List.append_nil]
    unfold handleEvent
    obtain ⟨balance, framed, valid, inCharge⟩ := conserves
    split
    · exact ⟨balance, framed, valid, rfl⟩
    · split
      · exact ⟨balance, framed, valid, rfl⟩
      · exact ⟨balance, framed, valid, inCharge⟩
  · rename_i thenWrite standing
    simp only [cooperates, standing] at cooperative
    exact receive_pass_conserves conserves room cooperative stepped
  · cases stepped
    rw [List.append_nil]
    exact decode_pass_conserves _ conserves within
  · rename_i caller standing
    exact flush_pass_conserves conserves standing (flush_answers_proper standing cooperative)
      stepped
  · cases stepped
  · cases stepped
  · cases stepped

/-- The account is kept along every run in which the kernel behaves properly and
no header exceeds the cap. -/
theorem run_conserves {socket : Socket} {state : ServerState} {history : List Event}
    (valid : socket.valid = true) (room : 0 < scratchSize)
    (run : ServedRun endian maxPayloadBytes scratchSize socket state history)
    (within : HeadersWithin maxPayloadBytes (received history)) :
    Conserves maxPayloadBytes state history := by
  induction run with
  | start => exact ⟨rfl, ⟨[], by simp, rfl⟩, valid, rfl⟩
  | step before permitted stepped inductionHypothesis =>
    rw [received_append] at within
    have earlier := headers_within_prefix within
    exact server_step_conserves (inductionHypothesis earlier) earlier room permitted stepped

/-- The decode loop together with the flush loop it calls, or a flush loop alone. -/
def inLoop : Phase → Bool
  | .decoding _ | .flushing _ => true
  | _ => false

/-- One pass that starts inside these loops, with any answers. That there is no
infinite sequence of them is termination. -/
def LoopPass (endian : Endian) (maxPayloadBytes : UInt64) (scratchSize : Nat)
    (next state : ServerState) : Prop :=
  inLoop state.phase = true ∧ ∃ choice events,
    serverStep endian maxPayloadBytes scratchSize state choice = some (next, events)

/-- Work left in the loops: a byte of the read buffer is moved once and removed
once, a byte of the write buffer is removed once. -/
def loopWork (state : ServerState) : Nat :=
  2 * state.slot.conn.readBuf.length + state.slot.conn.writeBuf.length +
    (match state.phase with
    | .flushing (.readHandler _) => 2
    | .flushing .eventLoop => 1
    | .decoding _ => 1
    | _ => 0)

/-- Every pass in the loops decreases the work that is left, so they end. Receiving is
no pass of a loop in this sense: a byte of the read buffer becomes one of the write
buffer, and that leaves. -/
theorem loop_pass_decreases {next state : ServerState}
    (pass : LoopPass endian maxPayloadBytes scratchSize next state) :
    loopWork next < loopWork state := by
  obtain ⟨inside, choice, events, stepped⟩ := pass
  unfold serverStep at stepped
  split at stepped
  · rename_i standing
    simp [standing, inLoop] at inside
  · rename_i standing
    simp [standing, inLoop] at inside
  · rename_i thenWrite standing
    cases stepped
    rcases decode_pass_cases endian maxPayloadBytes state thenWrite
      with ⟨_, same⟩ | ⟨_, same⟩ | ⟨payload, rest, _, shape, same⟩
    · simp [same, loopWork, standing]
    · simp [same, loopWork, standing]
    · simp only [same, loopWork, standing, shape, List.length_append, frame_length]
      omega
  · rename_i caller standing
    unfold flushPass at stepped
    split at stepped
    · cases stepped
    · cases stepped
      cases caller <;> simp [loopWork, standing]
    · split at stepped <;> cases stepped <;> cases caller <;>
        simp [loopWork, standing, Caller.resume]
    · rename_i sent conn returned
      rcases flush_cases returned with ⟨empty, same⟩ | ⟨_, error, same⟩ |
        ⟨count, positive, fits, _, same⟩
      · cases same
        cases stepped
        cases caller <;> simp [loopWork, standing, flushed, empty, Caller.resume]
      · cases same
      · cases same
        have nonzero := Nat.ne_of_gt positive
        simp only [nonzero, ↓reduceIte, Option.some.injEq, Prod.mk.injEq] at stepped
        obtain ⟨rfl, _⟩ := stepped
        simp only [loopWork, List.length_drop]
        omega
  · cases stepped
  · cases stepped
  · cases stepped

/-- The loops terminate, whatever the kernel answers: no sequence of passes goes
on for ever. -/
theorem loops_terminate (endian : Endian) (maxPayloadBytes : UInt64) (scratchSize : Nat) :
    WellFounded (LoopPass endian maxPayloadBytes scratchSize) :=
  Subrelation.wf loop_pass_decreases (measure loopWork).wf

/-- In a loop of a connection that keeps its account, a properly behaving kernel
always lets the next pass complete. -/
theorem loop_pass_enabled {state : ServerState} {history : List Event} {choice : Choice}
    (conserves : Conserves maxPayloadBytes state history) (inside : inLoop state.phase = true)
    (cooperative : cooperates scratchSize state choice = true) :
    ∃ next events,
      serverStep endian maxPayloadBytes scratchSize state choice = some (next, events) := by
  cases standing : state.phase with
  | decoding thenWrite =>
    simp only [serverStep, standing]
    exact ⟨_, _, rfl⟩
  | flushing caller =>
    obtain ⟨outcome, returned, blocks⟩ :=
      flush_properly conserves.valid (flush_answers_proper standing cooperative)
    simp only [serverStep, standing, flushPass, returned]
    rcases flush_cases returned with ⟨_, rfl⟩ | ⟨_, error, rfl⟩ | ⟨count, positive, _, _, rfl⟩
    · exact ⟨_, _, rfl⟩
    · simp only [blocks error _ rfl, ↓reduceIte]
      exact ⟨_, _, rfl⟩
    · simp only [Nat.ne_of_gt positive, ↓reduceIte]
      exact ⟨_, _, rfl⟩
  | waiting | receiving thenWrite | peerClosed | aborted cause | faulted fault =>
    simp [standing, inLoop] at inside

/-- End-to-end echo conservation on one connection.

In every run against a properly behaving kernel, as long as no header of the
input exceeds the cap: the accepted bytes, the write buffer and the read buffer
together are the delivered bytes; the first two are whole frames; and no handler
has aborted, so in particular encoding has never failed. From every state that
such a run reaches inside the decode loop or a flush loop the next pass
completes, and the passes of these loops are well-founded. -/
theorem echo_conservation (endian : Endian) (maxPayloadBytes : UInt64) (scratchSize : Nat)
    (socket : Socket) (valid : socket.valid = true) (room : 0 < scratchSize) :
    (∀ state history,
      ServedRun endian maxPayloadBytes scratchSize socket state history →
      HeadersWithin maxPayloadBytes (received history) →
      accepted history ++ state.slot.conn.writeBuf ++ state.slot.conn.readBuf =
          received history ∧
        (∃ payloads : List (List Byte),
          accepted history ++ state.slot.conn.writeBuf = payloads.flatMap frame) ∧
        (∀ cause, state.phase ≠ .aborted cause) ∧ (∀ fault, state.phase ≠ .faulted fault) ∧
        (inLoop state.phase = true → ∀ choice, cooperates scratchSize state choice = true →
          ∃ next events,
            serverStep endian maxPayloadBytes scratchSize state choice = some (next, events))) ∧
    WellFounded (LoopPass endian maxPayloadBytes scratchSize) := by
  refine ⟨?_, loops_terminate endian maxPayloadBytes scratchSize⟩
  intro state history run within
  have conserves := run_conserves valid room run within
  obtain ⟨payloads, _, framed⟩ := conserves.framed
  refine ⟨conserves.balance, ⟨payloads, framed⟩, ?_, ?_, ?_⟩
  · intro cause aborted
    have inCharge := conserves.serving
    rw [aborted] at inCharge
    exact Bool.noConfusion inCharge
  · intro fault faulted
    have inCharge := conserves.serving
    rw [faulted] at inCharge
    exact Bool.noConfusion inCharge
  · intro inside choice cooperative
    exact loop_pass_enabled conserves inside cooperative

/-- One frame arrives in two pieces, the first cut inside the header, with
interruptions. Its echo is accepted in two pieces, with a full socket buffer in between. -/
def splitEcho : List Choice :=
  [{ mask := .read }, { recv := [.failed .eintr, .received [0, 0, 0]] }, {},
    { recv := [.received [1, 42]] }, {}, { send := [.failed .eintr, .sent 2] },
    { send := [.failed .eagain] }, {}, { recv := [.failed .eagain] }, { mask := .write },
    { send := [.sent 3] }, {}]

/-- The only header of that frame is within the cap. -/
theorem split_echo_within : HeadersWithin 16 [0, 0, 0, 1, 42] := by
  intro payloads b0 b1 b2 b3 rest _ shape
  cases payloads with
  | nil =>
    simp only [List.flatMap_nil, List.nil_append, List.cons.injEq] at shape
    obtain ⟨rfl, rfl, rfl, rfl, _⟩ := shape
    decide
  | cons payload others =>
    have size := congrArg List.length shape
    simp only [List.flatMap_cons, List.length_append, List.length_cons, List.length_nil,
      frame_length] at size
    omega

/-- The hypotheses are met by a run in which the whole frame is delivered and
accepted again. -/
theorem echo_conservation_split :
    ∃ state history, ServedRun .little 16 64 ⟨7⟩ state history ∧
      received history = [0, 0, 0, 1, 42] ∧ accepted history = [0, 0, 0, 1, 42] ∧
      accepted history ++ state.slot.conn.writeBuf ++ state.slot.conn.readBuf =
        received history := by
  obtain ⟨state, history, run, observed⟩ :=
    replay_exhibits_under (echoServer .little 16 64) (opened ⟨7⟩) (cooperates 64)
      (fun _ _ passed => passed)
      (fun final => decide (received final.2 = [0, 0, 0, 1, 42] ∧
        accepted final.2 = [0, 0, 0, 1, 42])) splitEcho (by decide)
  obtain ⟨delivered, echoed⟩ := of_decide_eq_true observed
  have within : HeadersWithin 16 (received history) := delivered ▸ split_echo_within
  have conserved := (echo_conservation .little 16 64 ⟨7⟩ rfl (by decide)).1 state history run within
  exact ⟨state, history, run, delivered, echoed, conserved.1⟩

end TcpServer.EchoConservation
