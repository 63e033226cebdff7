import TcpServer.Connection
import TcpServer.FrameCodec
import TcpServer.Transition

/-!
# The receive loop

Chunks of a byte stream are appended to a connection's read buffer. After each
chunk the loop decodes from the front of the buffer: it consumes a complete
frame and delivers its payload, goes on to the next chunk when the buffer holds
no complete frame, and stops for good at an oversized length.

Every decoding attempt is one step, and delivered payloads are the events of
the run, so the history of a reached state is what has been delivered at that
point. One invariant relates all points of a run to the parse of the whole
stream; fragmentation cannot be seen in that parse.
-/

namespace TcpServer.ReceiveLoop

open FrameDecoder FrameEncoder FrameCodec PrefixDecoder Transition

/-- Where the receiving side is: it waits for bytes, it decodes what it has, it has
met a frame above the limit, or the decoder has faulted. -/
inductive Phase where
  | reading
  | decoding
  | oversized
  | faulted (fault : Fault)
deriving DecidableEq, Repr

/-- The connection, the payloads that were delivered and not consumed yet, and the
phase. -/
structure ReceiveState where
  conn : Connection
  pending : List (List Byte)
  phase : Phase := .reading
deriving DecidableEq, Repr

/-- One received chunk or one decoding attempt. -/
def receiveStep (host : Host) (maxPayloadBytes : UInt64) (state : ReceiveState) :
    Option (ReceiveState × List (List Byte)) :=
  match state.phase with
  | .reading =>
      match state.pending with
      | [] => none
      | chunk :: later =>
          some ({ conn := state.conn.appendRead chunk, pending := later, phase := .decoding }, [])
  | .decoding =>
      match tryDecodeFrame host state.conn.readBuf maxPayloadBytes with
      | .error fault => some ({ state with phase := .faulted fault }, [])
      | .ok result =>
          match result.status with
          | .incomplete => some ({ state with phase := .reading }, [])
          | .oversizedLength => some ({ state with phase := .oversized }, [])
          | .complete =>
              match state.conn.consumeRead result.consumedBytes with
              | .error fault => some ({ state with phase := .faulted fault }, [])
              | .ok conn => some ({ state with conn }, [result.payload])
  | .oversized => none
  | .faulted _ => none

/-- The loop as a system; it leaves nothing open, so there is one choice, and one run.
-/
def receiver (host : Host) (maxPayloadBytes : UInt64) : System ReceiveState Unit (List Byte) where
  step state _ := receiveStep host maxPayloadBytes state

/-- A new connection in front of a chunked stream. The cuts between the chunks are the
kernel's. -/
def receiving (socket : Socket) (chunks : List (List Byte)) : ReceiveState :=
  { conn := { socket }, pending := chunks }

/-- The run over the given chunks has stopped in `state`, having delivered
`delivered`. -/
def Finishes (host : Host) (maxPayloadBytes : UInt64) (socket : Socket) (chunks : List (List Byte))
    (state : ReceiveState) (delivered : List (List Byte)) : Prop :=
  Reaches (receiver host maxPayloadBytes) (receiving socket chunks) state delivered ∧
    receiveStep host maxPayloadBytes state = none

/-- The part of the stream that no consumed frame covers: what is buffered, and what
has not been received. -/
def ReceiveState.unconsumed (state : ReceiveState) : List Byte :=
  state.conn.readBuf ++ state.pending.flatten

/-- All that one step can do, on a 64-bit host: take the next chunk, deliver one
frame, go back to reading, or stop at a frame above the limit. The decoder does not
fault there. -/
theorem receive_step_cases {endian : Endian} {maxPayloadBytes : UInt64}
    {state next : ReceiveState} {events : List (List Byte)}
    (stepped : receiveStep (lp64 endian) maxPayloadBytes state = some (next, events)) :
    (∃ chunk later, state.phase = .reading ∧ state.pending = chunk :: later ∧ events = [] ∧
      next = { conn := state.conn.appendRead chunk, pending := later, phase := .decoding }) ∨
    (state.phase = .decoding ∧ events = [] ∧ next = { state with phase := .reading } ∧
      (frameDecoder endian maxPayloadBytes).decode state.conn.readBuf = .needMore) ∨
    (state.phase = .decoding ∧ events = [] ∧ next = { state with phase := .oversized } ∧
      (frameDecoder endian maxPayloadBytes).decode state.conn.readBuf = .reject) ∨
    (∃ consumed payload, state.phase = .decoding ∧ events = [payload] ∧
      next = { state with conn.readBuf := state.conn.readBuf.drop consumed } ∧
      (frameDecoder endian maxPayloadBytes).decode state.conn.readBuf =
        .accept consumed payload) := by
  obtain ⟨conn, pending, phase⟩ := state
  cases phase with
  | reading =>
    cases pending with
    | nil => simp [receiveStep] at stepped
    | cons chunk later =>
      cases stepped
      exact Or.inl ⟨chunk, later, rfl, rfl, rfl, rfl⟩
  | decoding =>
    obtain ⟨result, defined⟩ := try_decode_frame_defined endian conn.readBuf maxPayloadBytes
    have verdict : (frameDecoder endian maxPayloadBytes).decode conn.readBuf =
        verdictOf (.ok result) := congrArg verdictOf defined
    obtain ⟨status, consumed, payload⟩ := result
    simp only [receiveStep, defined] at stepped
    cases status with
    | incomplete =>
      cases stepped
      exact Or.inr (Or.inl ⟨rfl, rfl, rfl, verdict⟩)
    | oversizedLength =>
      cases stepped
      exact Or.inr (Or.inr (Or.inl ⟨rfl, rfl, rfl, verdict⟩))
    | complete =>
      have within := ((frameDecoder endian maxPayloadBytes).accept_bounds verdict).2
      simp only [Connection.consume_read_within conn consumed within] at stepped
      cases stepped
      exact Or.inr (Or.inr (Or.inr ⟨consumed, payload, rfl, rfl, rfl, verdict⟩))
  | oversized => simp [receiveStep] at stepped
  | faulted fault => simp [receiveStep] at stepped

/-- A decoding attempt is always possible. -/
theorem decoding_steps {endian : Endian} {maxPayloadBytes : UInt64} {state : ReceiveState}
    (decoding : state.phase = .decoding) :
    receiveStep (lp64 endian) maxPayloadBytes state ≠ none := by
  obtain ⟨⟨status, consumed, payload⟩, result⟩ :=
    try_decode_frame_defined endian state.conn.readBuf maxPayloadBytes
  intro stopped
  simp only [receiveStep, decoding, result] at stopped
  cases status with
  | incomplete | oversizedLength => simp at stopped
  | complete =>
    cases consuming : state.conn.consumeRead consumed <;> simp [consuming] at stopped

/-- What holds at every point of a run over `stream`: parsing the whole stream
is what has been delivered followed by parsing what is not consumed yet, and
the phase agrees with the decoder's verdict on the read buffer. -/
structure Follows (endian : Endian) (maxPayloadBytes : UInt64) (stream : List Byte)
    (state : ReceiveState) (delivered : List (List Byte)) : Prop where
  parsed : (frameDecoder endian maxPayloadBytes).parse stream =
    ((frameDecoder endian maxPayloadBytes).parse state.unconsumed).after delivered
  suffix : state.unconsumed <:+ stream
  reading : state.phase = .reading →
    (frameDecoder endian maxPayloadBytes).decode state.conn.readBuf = .needMore
  oversized : state.phase = .oversized →
    (frameDecoder endian maxPayloadBytes).decode state.conn.readBuf = .reject
  defined : ∀ fault, state.phase ≠ .faulted fault

/-- A new connection asks for input. -/
theorem receiving_follows (endian : Endian) (maxPayloadBytes : UInt64) (socket : Socket)
    (chunks : List (List Byte)) :
    Follows endian maxPayloadBytes chunks.flatten (receiving socket chunks) [] where
  parsed := rfl
  suffix := List.suffix_refl _
  reading _ :=
    congrArg verdictOf (try_decode_frame_short (lp64 endian) [] maxPayloadBytes (by simp))
  oversized impossible := nomatch impossible
  defined _ impossible := nomatch impossible

/-- One step keeps the account. Receiving a chunk moves bytes without changing
what is unconsumed. A consumed frame moves from the parse of the rest into what
has been delivered; stability lets the pending chunks stand behind it. -/
theorem receive_step_follows {endian : Endian} {maxPayloadBytes : UInt64} {stream : List Byte}
    {state next : ReceiveState} {delivered events : List (List Byte)}
    (follows : Follows endian maxPayloadBytes stream state delivered)
    (stepped : receiveStep (lp64 endian) maxPayloadBytes state = some (next, events)) :
    Follows endian maxPayloadBytes stream next (delivered ++ events) := by
  obtain ⟨parsed, suffix, _, _, _⟩ := follows
  rcases receive_step_cases stepped with ⟨chunk, later, _, waiting, rfl, rfl⟩ |
    ⟨_, rfl, rfl, verdict⟩ | ⟨_, rfl, rfl, verdict⟩ |
      ⟨consumed, payload, standing, rfl, rfl, verdict⟩
  · have same : ReceiveState.unconsumed
        { conn := state.conn.appendRead chunk, pending := later, phase := .decoding } =
        state.unconsumed := by
      simp [ReceiveState.unconsumed, Connection.appendRead, waiting]
    rw [List.append_nil]
    exact ⟨same ▸ parsed, same ▸ suffix, nofun, nofun, nofun⟩
  · rw [List.append_nil]
    exact ⟨parsed, suffix, fun _ => verdict, nofun, nofun⟩
  · rw [List.append_nil]
    exact ⟨parsed, suffix, nofun, fun _ => verdict, nofun⟩
  · have within := ((frameDecoder endian maxPayloadBytes).accept_bounds verdict).2
    have behind : ReceiveState.unconsumed
        { state with conn.readBuf := state.conn.readBuf.drop consumed } =
        state.unconsumed.drop consumed := by
      simp [ReceiveState.unconsumed, List.drop_append_of_le_length within]
    refine ⟨?_, ?_, ?_, ?_, ?_⟩
    · have stable := (frameDecoder endian maxPayloadBytes).accept_stable verdict
        state.pending.flatten
      rw [behind, parsed, ReceiveState.unconsumed, parse_accept stable, after_after]
    · rw [behind]
      exact (List.drop_suffix consumed _).trans suffix
    · intro impossible
      simp [standing] at impossible
    · intro impossible
      simp [standing] at impossible
    · intro fault impossible
      simp [standing] at impossible

/-- The account holds at every point of every run. -/
theorem reached_follows {endian : Endian} {maxPayloadBytes : UInt64} {socket : Socket}
    {chunks : List (List Byte)} {state : ReceiveState} {delivered : List (List Byte)}
    (reached : Reaches (receiver (lp64 endian) maxPayloadBytes) (receiving socket chunks)
      state delivered) :
    Follows endian maxPayloadBytes chunks.flatten state delivered :=
  run_invariant (Follows endian maxPayloadBytes chunks.flatten)
    (receiving_follows endian maxPayloadBytes socket chunks)
    (fun _ _ _ _ _ _ follows _ stepped => receive_step_follows follows stepped) reached

/-- A stopped run has either received everything and waits for more, or stands
at an oversized header. In both cases its deliveries are the parse of the whole
stream, and so is what it leaves unconsumed. -/
theorem finished_parse {endian : Endian} {maxPayloadBytes : UInt64} {socket : Socket}
    {chunks : List (List Byte)} {state : ReceiveState} {delivered : List (List Byte)}
    (finished : Finishes (lp64 endian) maxPayloadBytes socket chunks state delivered) :
    (state.phase = .reading ∧ state.pending = [] ∧
      (frameDecoder endian maxPayloadBytes).parse chunks.flatten =
        ⟨delivered, .starved, state.conn.readBuf⟩) ∨
    (state.phase = .oversized ∧
      (frameDecoder endian maxPayloadBytes).parse chunks.flatten =
        ⟨delivered, .rejected, state.unconsumed⟩) := by
  obtain ⟨reached, stopped⟩ := finished
  obtain ⟨parsed, suffix, reading, oversized, defined⟩ := reached_follows reached
  cases phase : state.phase with
  | reading =>
    cases pending : state.pending with
    | cons chunk later => simp [receiveStep, phase, pending] at stopped
    | nil =>
      have rest : state.unconsumed = state.conn.readBuf := by
        simp [ReceiveState.unconsumed, pending]
      refine Or.inl ⟨rfl, rfl, ?_⟩
      rw [parsed, rest, parse_needMore (reading phase)]
      simp [Parsed.after]
  | decoding => exact absurd stopped (decoding_steps phase)
  | oversized =>
    have rejected := (frameDecoder endian maxPayloadBytes).reject_stable (oversized phase)
      state.pending.flatten
    refine Or.inr ⟨rfl, ?_⟩
    rw [parsed, ReceiveState.unconsumed, parse_reject rejected]
    simp [Parsed.after]
  | faulted fault => exact False.elim (defined fault phase)

/-- Remaining work: unconsumed bytes count twice and pending chunks three times,
so that receiving, consuming and stopping all decrease it. -/
def remaining (state : ReceiveState) : Nat :=
  2 * state.unconsumed.length + 3 * state.pending.length +
    (if state.phase = .decoding then 1 else 0)

/-- Every step decreases the remaining work. -/
theorem receive_step_decreases {endian : Endian} {maxPayloadBytes : UInt64}
    {state next : ReceiveState} {events : List (List Byte)}
    (stepped : receiveStep (lp64 endian) maxPayloadBytes state = some (next, events)) :
    remaining next < remaining state := by
  rcases receive_step_cases stepped with ⟨chunk, later, standing, waiting, _, rfl⟩ |
    ⟨standing, _, rfl, _⟩ | ⟨standing, _, rfl, _⟩ | ⟨consumed, payload, standing, _, rfl, verdict⟩
  · simp only [remaining, ReceiveState.unconsumed, Connection.appendRead, standing, waiting,
      List.length_append, List.flatten_cons, List.length_cons, ↓reduceIte, reduceCtorEq]
    omega
  · simp [remaining, ReceiveState.unconsumed, standing]
  · simp [remaining, ReceiveState.unconsumed, standing]
  · obtain ⟨positive, within⟩ := (frameDecoder endian maxPayloadBytes).accept_bounds verdict
    simp only [remaining, ReceiveState.unconsumed, standing, List.length_append, List.length_drop]
    omega

/-- Every run stops, in some state. -/
theorem receive_finishes (endian : Endian) (maxPayloadBytes : UInt64) (socket : Socket)
    (chunks : List (List Byte)) :
    ∃ state delivered,
      Finishes (lp64 endian) maxPayloadBytes socket chunks state delivered := by
  obtain ⟨final, delivered, reached, stopped⟩ :=
    terminates_of_measure (receiver (lp64 endian) maxPayloadBytes) remaining
      (fun _ _ _ _ stepped => receive_step_decreases stepped) (receiving socket chunks)
  exact ⟨final, delivered, reached, stopped ()⟩

/-- The inner loop terminates: from a state that decodes, decoding steps alone
lead to a state that does not. Induct over the remaining work. -/
theorem decode_loop_terminates (endian : Endian) (maxPayloadBytes : UInt64) (state : ReceiveState)
    (decoding : state.phase = .decoding) :
    ∃ next delivered, Run (receiver (lp64 endian) maxPayloadBytes)
      (fun passed _ => passed.phase = .decoding) state next delivered ∧
        next.phase ≠ .decoding := by
  generalize size : remaining state = bound
  induction bound using Nat.strongRecOn generalizing state with
  | ind bound inductionHypothesis =>
    obtain ⟨⟨next, events⟩, stepped⟩ := Option.ne_none_iff_exists'.mp (decoding_steps decoding)
    have first : Run (receiver (lp64 endian) maxPayloadBytes)
        (fun passed _ => passed.phase = .decoding) state next ([] ++ events) :=
      Run.step Run.start decoding (show (receiver _ _).step state () = _ from stepped)
    by_cases still : next.phase = .decoding
    · obtain ⟨final, delivered, rest, left⟩ :=
        inductionHypothesis _ (size ▸ receive_step_decreases stepped) next still rfl
      exact ⟨final, _, run_append first rest, left⟩
    · exact ⟨next, _, first, still⟩

/-- How two runs over the same bytes end that have both delivered `delivered`.
Either both have received all of their input and wait for more, with the same
residual buffer, on which the decoder says `Incomplete`; or both stand at the
same oversized header, with the same end of the stream not consumed. The bytes
consumed before that are in both cases exactly the frames of the deliveries. -/
def SameEnd (endian : Endian) (maxPayloadBytes : UInt64) (stream : List Byte)
    (delivered : List (List Byte)) (first second : ReceiveState) : Prop :=
  (first.phase = .reading ∧ second.phase = .reading ∧ first.pending = [] ∧ second.pending = [] ∧
    first.conn.readBuf = second.conn.readBuf ∧
    stream = delivered.flatMap frame ++ first.conn.readBuf ∧
    tryDecodeFrame (lp64 endian) first.conn.readBuf maxPayloadBytes =
      .ok { status := .incomplete }) ∨
  (first.phase = .oversized ∧ second.phase = .oversized ∧
    first.unconsumed = second.unconsumed ∧
    stream = delivered.flatMap frame ++ first.unconsumed ∧
    tryDecodeFrame (lp64 endian) first.unconsumed maxPayloadBytes =
      .ok { status := .oversizedLength })

/-- Two stopped runs over one stream have computed the same parse of it, which
determines the deliveries, the kind of the end and the bytes that are left. -/
theorem finished_alike {endian : Endian} {maxPayloadBytes : UInt64} {socket : Socket}
    {stream : List Byte} {first second : List (List Byte)} {left right : ReceiveState}
    {leftDelivered rightDelivered : List (List Byte)}
    (firstCut : first.flatten = stream) (secondCut : second.flatten = stream)
    (leftFinished : Finishes (lp64 endian) maxPayloadBytes socket first left leftDelivered)
    (rightFinished : Finishes (lp64 endian) maxPayloadBytes socket second right rightDelivered) :
    leftDelivered = rightDelivered ∧
      SameEnd endian maxPayloadBytes stream leftDelivered left right := by
  have leftParse := finished_parse leftFinished
  have rightParse := finished_parse rightFinished
  rw [firstCut] at leftParse
  rw [secondCut] at rightParse
  have encoded := (parse_reencodes endian maxPayloadBytes stream).2
  have verdict := parse_rest_verdict (frameDecoder endian maxPayloadBytes) stream
  rcases leftParse with ⟨leftPhase, leftInput, leftParse⟩ | ⟨leftPhase, leftParse⟩
  · rcases rightParse with ⟨rightPhase, rightInput, rightParse⟩ | ⟨rightPhase, rightParse⟩
    · have same := leftParse.symm.trans rightParse
      simp only [Parsed.mk.injEq, true_and] at same
      rw [leftParse] at encoded verdict
      exact ⟨same.1, Or.inl ⟨leftPhase, rightPhase, leftInput, rightInput, same.2, encoded,
        verdict_need_more verdict⟩⟩
    · have same := leftParse.symm.trans rightParse
      simp at same
  · rcases rightParse with ⟨rightPhase, _, rightParse⟩ | ⟨rightPhase, rightParse⟩
    · have same := leftParse.symm.trans rightParse
      simp at same
    · have same := leftParse.symm.trans rightParse
      simp only [Parsed.mk.injEq, true_and] at same
      rw [leftParse] at encoded verdict
      exact ⟨same.1, Or.inr ⟨leftPhase, rightPhase, same.2, encoded, verdict_reject verdict⟩⟩

/-- Decoding does not depend on fragmentation. For any two ways of cutting one
byte stream, both runs stop, they deliver the same payloads in the same order,
each within the cap, and they end alike; and the inner decoding loop terminates
in every state.

Both runs compute the parse of the same stream, and encoding a parse again gives
back the stream. -/
theorem fragmentation_independent (endian : Endian) (maxPayloadBytes : UInt64) (socket : Socket)
    (stream : List Byte) (first second : List (List Byte))
    (firstCut : first.flatten = stream) (secondCut : second.flatten = stream) :
    (∃ state delivered, Finishes (lp64 endian) maxPayloadBytes socket first state delivered) ∧
    (∃ state delivered, Finishes (lp64 endian) maxPayloadBytes socket second state delivered) ∧
    (∀ left right leftDelivered rightDelivered,
      Finishes (lp64 endian) maxPayloadBytes socket first left leftDelivered →
      Finishes (lp64 endian) maxPayloadBytes socket second right rightDelivered →
      leftDelivered = rightDelivered ∧
        (∀ payload ∈ leftDelivered, payload.length ≤ payloadCap maxPayloadBytes) ∧
        SameEnd endian maxPayloadBytes stream leftDelivered left right) ∧
    (∀ state : ReceiveState, state.phase = .decoding →
      ∃ next delivered, Run (receiver (lp64 endian) maxPayloadBytes)
        (fun passed _ => passed.phase = .decoding) state next delivered ∧
          next.phase ≠ .decoding) := by
  refine ⟨receive_finishes endian maxPayloadBytes socket first,
    receive_finishes endian maxPayloadBytes socket second, ?_,
    decode_loop_terminates endian maxPayloadBytes⟩
  intro left right leftDelivered rightDelivered leftFinished rightFinished
  obtain ⟨same, alike⟩ := finished_alike firstCut secondCut leftFinished rightFinished
  have within := (parse_reencodes endian maxPayloadBytes first.flatten).1
  rcases finished_parse leftFinished with ⟨_, _, parsed⟩ | ⟨_, parsed⟩ <;>
  · rw [parsed] at within
    exact ⟨same, within, alike⟩

/-- A stream of a frame with one payload byte and the first three bytes of the
next header, received whole or cut inside both headers. Both runs finish; both
deliver that payload and nothing else, both have received everything, and the
three bytes stay in both buffers, where the decoder finds them `Incomplete`. -/
theorem fragmentation_independent_split_header :
    ∃ left right,
      Finishes (lp64 .little) 16 ⟨7⟩ [[0, 0, 0, 1, 42, 0, 0, 0]] left [[42]] ∧
      Finishes (lp64 .little) 16 ⟨7⟩ [[0, 0], [0, 1], [42, 0], [0], [0]] right [[42]] ∧
      left.pending = [] ∧ right.pending = [] ∧
      left.conn.readBuf = [0, 0, 0] ∧ right.conn.readBuf = [0, 0, 0] ∧
      SameEnd .little 16 [0, 0, 0, 1, 42, 0, 0, 0] [[42]] left right := by
  obtain ⟨⟨left, leftDelivered, leftFinished⟩, ⟨right, rightDelivered, rightFinished⟩, agree, _⟩ :=
    fragmentation_independent .little 16 ⟨7⟩ [0, 0, 0, 1, 42, 0, 0, 0] [[0, 0, 0, 1, 42, 0, 0, 0]]
      [[0, 0], [0, 1], [42, 0], [0], [0]] rfl rfl
  obtain ⟨rfl, _, alike⟩ :=
    agree left right leftDelivered rightDelivered leftFinished rightFinished
  have parsed := parse_frames .little 16 [[42]] (by decide) [0, 0, 0]
  have waits : (frameDecoder .little 16).decode [0, 0, 0] = .needMore :=
    congrArg verdictOf (try_decode_frame_short (lp64 .little) [0, 0, 0] 16 (by decide))
  rw [parse_needMore waits] at parsed
  have ended : (frameDecoder .little 16).parse [0, 0, 0, 1, 42, 0, 0, 0] =
      ⟨[[42]], .starved, [0, 0, 0]⟩ := parsed
  rcases finished_parse leftFinished with ⟨reading, _, computed⟩ | ⟨_, computed⟩
  · have same := ended.symm.trans computed
    simp only [Parsed.mk.injEq, true_and] at same
    obtain ⟨rfl, rest⟩ := same
    rcases alike with ⟨leftPhase, rightPhase, leftInput, rightInput, sameRest, others⟩ |
      ⟨leftPhase, _⟩
    · exact ⟨left, right, leftFinished, rightFinished, leftInput, rightInput, rest.symm,
        sameRest ▸ rest.symm,
        Or.inl ⟨leftPhase, rightPhase, leftInput, rightInput, sameRest, others⟩⟩
    · exact Phase.noConfusion (reading.symm.trans leftPhase)
  · have same := ended.symm.trans computed
    simp at same

/-- The stream of consecutive frames parses into exactly their payloads. -/
theorem parse_wire (endian : Endian) (maxPayloadBytes : UInt64) (payloads : List (List Byte))
    (fits : ∀ payload ∈ payloads, payload.length ≤ payloadCap maxPayloadBytes) :
    (frameDecoder endian maxPayloadBytes).parse (payloads.flatMap frame) =
      ⟨payloads, .starved, []⟩ := by
  have empty : (frameDecoder endian maxPayloadBytes).decode [] = .needMore :=
    congrArg verdictOf (try_decode_frame_short (lp64 endian) [] maxPayloadBytes (by simp))
  have parsed := parse_frames endian maxPayloadBytes payloads fits []
  rw [parse_needMore empty, List.append_nil] at parsed
  rw [parsed]
  simp [Parsed.after]

/-- The stream round trip of the codec under every fragmentation.

Encoding the payloads in order succeeds. For every way of cutting the wire
bytes, the receive loop stops; at every point of the run it has delivered a
prefix of the payloads and has met neither an oversized length nor a fault; and
when it stops it has delivered exactly the payloads and its buffer is empty. -/
theorem stream_round_trip (endian : Endian) (maxPayloadBytes : UInt64) (socket : Socket)
    (payloads : List (List Byte))
    (fits : ∀ payload ∈ payloads, payload.length ≤ min maxPayloadBytes.toNat (2 ^ 32 - 1)) :
    ∃ wire, appendEncodedFrames [] maxPayloadBytes payloads = .ok (.ok (), wire) ∧
      ∀ chunks : List (List Byte), chunks.flatten = wire →
        (∃ state delivered,
          Finishes (lp64 endian) maxPayloadBytes socket chunks state delivered) ∧
        (∀ state delivered,
          Reaches (receiver (lp64 endian) maxPayloadBytes) (receiving socket chunks) state
            delivered →
          delivered <+: payloads ∧ state.phase ≠ .oversized ∧
            ∀ fault, state.phase ≠ .faulted fault) ∧
        (∀ state delivered,
          Finishes (lp64 endian) maxPayloadBytes socket chunks state delivered →
          delivered = payloads ∧ state.conn.readBuf = []) := by
  refine ⟨payloads.flatMap frame, append_encoded_frames_exact [] payloads maxPayloadBytes fits, ?_⟩
  intro chunks cut
  have wire := parse_wire endian maxPayloadBytes payloads fits
  refine ⟨receive_finishes endian maxPayloadBytes socket chunks, ?_, ?_⟩
  · intro state delivered reached
    obtain ⟨parsed, _, _, oversized, defined⟩ := reached_follows reached
    rw [cut, wire] at parsed
    refine ⟨⟨_, (congrArg Parsed.values parsed).symm⟩, ?_, defined⟩
    intro stopped
    have rejected := (frameDecoder endian maxPayloadBytes).reject_stable (oversized stopped)
      state.pending.flatten
    rw [ReceiveState.unconsumed, parse_reject rejected] at parsed
    simp [Parsed.after] at parsed
  · intro state delivered finished
    rcases finished_parse finished with ⟨_, _, parsed⟩ | ⟨_, parsed⟩
    · rw [cut, wire] at parsed
      simp only [Parsed.mk.injEq, true_and] at parsed
      exact ⟨parsed.1.symm, parsed.2.symm⟩
    · rw [cut, wire] at parsed
      simp at parsed

/-- The round trip for an empty and a one-byte payload. -/
theorem stream_round_trip_small :
    ∃ wire, appendEncodedFrames [] 1 [[], [42]] = .ok (.ok (), wire) ∧
      ∀ chunks : List (List Byte), chunks.flatten = wire →
        (∃ state delivered, Finishes (lp64 .big) 1 ⟨7⟩ chunks state delivered) ∧
        (∀ state delivered,
          Reaches (receiver (lp64 .big) 1) (receiving ⟨7⟩ chunks) state delivered →
          delivered <+: [[], [42]] ∧ state.phase ≠ .oversized ∧
            ∀ fault, state.phase ≠ .faulted fault) ∧
        (∀ state delivered, Finishes (lp64 .big) 1 ⟨7⟩ chunks state delivered →
          delivered = [[], [42]] ∧ state.conn.readBuf = []) :=
  stream_round_trip .big 1 ⟨7⟩ [[], [42]] (by decide)

end TcpServer.ReceiveLoop
