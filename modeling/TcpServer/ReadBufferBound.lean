import TcpServer.EchoConservation
import TcpServer.ReceiveLoop

/-!
# The size of the read buffer

Nothing in the buffer code limits how far a read buffer grows. The limit comes
from the loop around it: input is only appended when the decoder has asked for
more, and the decoder asks for more only when the buffer is shorter than a frame
within the cap. So each received chunk is added to less than one frame.

This is proved for the receive loop over an arbitrary chunked stream, and for
the handlers of the echo server against an arbitrary kernel.
-/

namespace TcpServer.ReadBufferBound

open EchoConnection EchoConservation FrameDecoder FrameEncoder FrameCodec ReceiveLoop SocketIo
open PrefixDecoder Transition

/-- The buffer of a decoder that asks for more: shorter than the longest frame
within the cap, and than the declared frame once there is a header. -/
structure AwaitsMore (maxPayloadBytes : UInt64) (buffer : List Byte) : Prop where
  short : buffer.length < 4 + min maxPayloadBytes.toNat (2 ^ 32 - 1)
  declared : ∀ b0 b1 b2 b3 body, buffer = b0 :: b1 :: b2 :: b3 :: body →
    buffer.length < 4 + declaredLength b0 b1 b2 b3

/-- The phases of the echo server in which its decode loop is behind it and
nothing has been received since. -/
def awaitsInput : EchoConnection.Phase → Bool
  | .waiting | .receiving _ | .flushing .eventLoop => true
  | _ => false

/-- A decoder that asks for more has seen less than one frame within the cap: either
the header is not complete, or it declares a length within the cap and the payload is
not complete. -/
theorem need_more_awaits {endian : Endian} {maxPayloadBytes : UInt64} {buffer : List Byte}
    (verdict : (frameDecoder endian maxPayloadBytes).decode buffer = .needMore) :
    AwaitsMore maxPayloadBytes buffer := by
  match buffer with
  | [] | [_] | [_, _] | [_, _, _] =>
    constructor
    · simp only [List.length_cons, List.length_nil]
      omega
    · intro b0 b1 b2 b3 body shape
      cases shape
  | b0 :: b1 :: b2 :: b3 :: body =>
    have decoded := try_decode_frame_header (lp64 endian) (lp64_wide endian) b0 b1 b2 b3 body
      maxPayloadBytes
    change verdictOf _ = _ at verdict
    rw [decoded] at verdict
    by_cases oversized : payloadCap maxPayloadBytes < declaredLength b0 b1 b2 b3
    · rw [if_pos oversized] at verdict
      cases verdict
    · rw [if_neg oversized] at verdict
      by_cases missing : body.length < declaredLength b0 b1 b2 b3
      · unfold payloadCap at oversized
        constructor
        · simp only [List.length_cons]
          omega
        · intro c0 c1 c2 c3 rest shape
          cases shape
          simp only [List.length_cons]
          omega
      · rw [if_neg missing] at verdict
        cases verdict

/-- What the receive loop keeps: its buffer is within the bound, and so are the
chunks that it has not received yet. -/
structure Bounded (maxPayloadBytes : UInt64) (chunkSize : Nat) (state : ReceiveState) : Prop where
  buffer : state.conn.readBuf.length ≤ 4 + min maxPayloadBytes.toNat (2 ^ 32 - 1) + chunkSize
  chunks : ∀ chunk ∈ state.pending, chunk.length ≤ chunkSize

/-- One step keeps the bound. A chunk is appended only while more is awaited. -/
theorem receive_step_bounded {endian : Endian} {maxPayloadBytes : UInt64} {chunkSize : Nat}
    {state next : ReceiveState} {events : List (List Byte)}
    (bounded : Bounded maxPayloadBytes chunkSize state)
    (awaits : state.phase = .reading → AwaitsMore maxPayloadBytes state.conn.readBuf)
    (stepped : receiveStep (lp64 endian) maxPayloadBytes state = some (next, events)) :
    Bounded maxPayloadBytes chunkSize next := by
  obtain ⟨buffer, chunks⟩ := bounded
  rcases receive_step_cases stepped with ⟨chunk, later, standing, waiting, _, rfl⟩ |
    ⟨_, _, rfl, _⟩ | ⟨_, _, rfl, _⟩ | ⟨consumed, payload, _, _, rfl, _⟩
  · have short := (awaits standing).short
    rw [waiting] at chunks
    have added := chunks chunk List.mem_cons_self
    constructor
    · simp only [Connection.appendRead, List.length_append]
      omega
    · intro other member
      exact chunks other (List.mem_cons_of_mem chunk member)
  · exact ⟨buffer, chunks⟩
  · exact ⟨buffer, chunks⟩
  · constructor
    · simp only [List.length_drop]
      omega
    · exact chunks

/-- The bound holds at every point of every run over chunks of limited size. -/
theorem reached_bounded {endian : Endian} {maxPayloadBytes : UInt64} {chunkSize : Nat}
    {socket : Socket} {chunks : List (List Byte)}
    (limited : ∀ chunk ∈ chunks, chunk.length ≤ chunkSize) {state : ReceiveState}
    {delivered : List (List Byte)}
    (reached : Reaches (receiver (lp64 endian) maxPayloadBytes) (receiving socket chunks)
      state delivered) :
    Bounded maxPayloadBytes chunkSize state := by
  apply run_invariant (fun state _ => Bounded maxPayloadBytes chunkSize state) _ _ reached
  · exact ⟨Nat.zero_le _, limited⟩
  · intro state history choice next events before bounded _ stepped
    have awaits : state.phase = .reading → AwaitsMore maxPayloadBytes state.conn.readBuf :=
      fun standing => need_more_awaits ((reached_follows before).reading standing)
    exact receive_step_bounded bounded awaits stepped

/-- What the echo server keeps of its read buffer: where it receives, less than a
frame is left, so a chunk more is the bound. -/
structure ServerBounded (maxPayloadBytes : UInt64) (scratchSize : Nat) (state : ServerState) :
    Prop where
  awaits : awaitsInput state.phase = true → AwaitsMore maxPayloadBytes state.slot.conn.readBuf
  buffer : state.slot.conn.readBuf.length ≤
    4 + min maxPayloadBytes.toNat (2 ^ 32 - 1) + scratchSize

section Server

variable {endian : Endian} {maxPayloadBytes : UInt64} {scratchSize : Nat}
  {state next : ServerState}

/-- Where the read buffer is left alone and input is awaited no more than before. -/
theorem server_bounded_kept (bounded : ServerBounded maxPayloadBytes scratchSize state)
    (same : next.slot.conn.readBuf = state.slot.conn.readBuf)
    (phase : awaitsInput next.phase = true → awaitsInput state.phase = true) :
    ServerBounded maxPayloadBytes scratchSize next := by
  obtain ⟨awaits, buffer⟩ := bounded
  constructor
  · rw [same]
    exact fun waiting => awaits (phase waiting)
  · rw [same]
    exact buffer

/-- Receiving adds at most one scratch buffer to an awaiting read buffer. A pass that
delivers nothing leaves the buffer as it is. -/
theorem receive_pass_bounded {thenWrite : Bool} {answers : List RecvAnswer}
    {events : List Event} (bounded : ServerBounded maxPayloadBytes scratchSize state)
    (standing : state.phase = .receiving thenWrite)
    (passed : receivePass scratchSize state thenWrite answers = some (next, events)) :
    ServerBounded maxPayloadBytes scratchSize next := by
  have waiting : awaitsInput state.phase = true := by
    rw [standing]
    rfl
  cases returned : receiveNonblocking state.slot.conn scratchSize answers with
  | none => simp [receivePass, returned] at passed
  | some outcome =>
    obtain ⟨result, after⟩ := outcome
    rcases receive_cases returned with ⟨error, rfl, rfl⟩ | ⟨_, fits, rfl, rfl⟩
    · simp only [receivePass, returned] at passed
      split at passed
      · cases passed
        exact server_bounded_kept bounded rfl (fun _ => waiting)
      · split at passed
        · cases passed
          constructor
          · intro impossible
            cases impossible
          · exact Nat.zero_le _
        · cases passed
          exact server_bounded_kept bounded rfl (fun _ => waiting)
    · simp only [receivePass, returned] at passed
      cases passed
      have short := (bounded.awaits waiting).short
      constructor
      · intro impossible
        cases impossible
      · simp only [Connection.appendRead, List.length_append]
        omega

/-- Decoding shortens the read buffer, or finds that more is awaited. -/
theorem decode_pass_bounded (thenWrite : Bool)
    (bounded : ServerBounded maxPayloadBytes scratchSize state) :
    ServerBounded maxPayloadBytes scratchSize
      (decodePass endian maxPayloadBytes state thenWrite) := by
  obtain ⟨_, buffer⟩ := bounded
  rcases decode_pass_cases endian maxPayloadBytes state thenWrite
    with ⟨verdict, same⟩ | ⟨_, same⟩ | ⟨payload, rest, _, shape, same⟩
  · rw [same]
    exact ⟨fun _ => need_more_awaits verdict, buffer⟩
  · rw [same]
    exact ⟨nofun, buffer⟩
  · rw [shape, List.length_append] at buffer
    rw [same]
    exact ⟨nofun, by simp only; omega⟩

/-- Flushing does not touch the read buffer, whatever the kernel takes and wherever
the handler goes on. -/
theorem flush_pass_bounded {caller : Caller} {answers : List SendAnswer} {events : List Event}
    (bounded : ServerBounded maxPayloadBytes scratchSize state)
    (standing : state.phase = .flushing caller)
    (passed : flushPass state caller answers = some (next, events)) :
    ServerBounded maxPayloadBytes scratchSize next := by
  have before : caller = .eventLoop → awaitsInput state.phase = true := by
    intro same
    rw [standing, same]
    rfl
  have resumes : awaitsInput caller.resume = true → awaitsInput state.phase = true := by
    cases caller with
    | eventLoop => exact fun _ => before rfl
    | readHandler thenWrite => exact fun waits => Bool.noConfusion waits
  cases returned : flushWriteNonblocking state.slot.conn answers with
  | none => simp [flushPass, returned] at passed
  | some outcome =>
    simp only [flushPass, returned] at passed
    rcases flush_cases returned with ⟨_, rfl⟩ | ⟨_, error, rfl⟩ | ⟨count, positive, _, _, rfl⟩
    · cases passed
      unfold flushed
      split
      · exact server_bounded_kept bounded rfl resumes
      · exact server_bounded_kept bounded rfl resumes
    · simp only at passed
      split at passed
      · cases passed
        exact server_bounded_kept bounded rfl resumes
      · cases passed
        exact server_bounded_kept bounded rfl fun waits => Bool.noConfusion waits
    · have nonzero : count ≠ 0 := Nat.ne_of_gt positive
      simp only [nonzero, ↓reduceIte] at passed
      cases passed
      exact server_bounded_kept bounded rfl id

/-- One step of the echo server keeps the bound. Receiving goes up to it, and decoding
ends below a frame before the next receive. -/
theorem server_step_bounded {choice : Choice} {events : List Event}
    (bounded : ServerBounded maxPayloadBytes scratchSize state)
    (stepped : serverStep endian maxPayloadBytes scratchSize state choice = some (next, events)) :
    ServerBounded maxPayloadBytes scratchSize next := by
  cases standing : state.phase with
  | waiting =>
    have waiting : awaitsInput state.phase = true := by
      rw [standing]
      rfl
    simp only [serverStep, standing] at stepped
    cases stepped
    unfold handleEvent
    split
    · exact server_bounded_kept bounded rfl (fun _ => waiting)
    · split
      · exact server_bounded_kept bounded rfl (fun _ => waiting)
      · exact bounded
  | receiving thenWrite =>
    simp only [serverStep, standing] at stepped
    exact receive_pass_bounded bounded standing stepped
  | decoding thenWrite =>
    simp only [serverStep, standing] at stepped
    cases stepped
    exact decode_pass_bounded thenWrite bounded
  | flushing caller =>
    simp only [serverStep, standing] at stepped
    exact flush_pass_bounded bounded standing stepped
  | peerClosed | aborted _ | faulted _ =>
    simp [serverStep, standing] at stepped

/-- The bound holds at every point of every run of the echo server. -/
theorem run_server_bounded {socket : Socket} {history : List Event}
    (reached : Reaches (echoServer endian maxPayloadBytes scratchSize) (opened socket)
      state history) :
    ServerBounded maxPayloadBytes scratchSize state := by
  apply run_invariant (fun state _ => ServerBounded maxPayloadBytes scratchSize state) _ _ reached
  · constructor
    · intro _
      have empty : (frameDecoder endian maxPayloadBytes).decode [] = .needMore :=
        congrArg verdictOf (try_decode_frame_short (lp64 endian) [] maxPayloadBytes (by simp))
      exact need_more_awaits empty
    · exact Nat.zero_le _
  · intro state history choice next events _ bounded _ stepped
    exact server_step_bounded bounded stepped

end Server

/-- The read buffer is bounded. For every chunked stream and in every state that
the receive loop reaches, the buffer is at most one chunk larger than the longest
frame within the cap, and behind each inner decode loop it is shorter than the
frame that it has begun. The same holds of the echo server, whatever the kernel
answers; there a chunk is at most a scratch buffer.

The deliveries cancel out of the argument: what carries it is the verdict of the
last decoding attempt, which the receive loop keeps while it reads. -/
theorem read_buffer_bounded (endian : Endian) (maxPayloadBytes : UInt64) (chunkSize : Nat)
    (socket : Socket) :
    (∀ chunks : List (List Byte), (∀ chunk ∈ chunks, chunk.length ≤ chunkSize) →
      ∀ state delivered,
        Reaches (receiver (lp64 endian) maxPayloadBytes) (receiving socket chunks) state
          delivered →
        (state.phase = .reading → AwaitsMore maxPayloadBytes state.conn.readBuf) ∧
          state.conn.readBuf.length ≤
            4 + min maxPayloadBytes.toNat (2 ^ 32 - 1) + chunkSize) ∧
    (∀ state history,
      Reaches (echoServer endian maxPayloadBytes chunkSize) (opened socket) state history →
      (awaitsInput state.phase = true →
        AwaitsMore maxPayloadBytes state.slot.conn.readBuf) ∧
        state.slot.conn.readBuf.length ≤
          4 + min maxPayloadBytes.toNat (2 ^ 32 - 1) + chunkSize) := by
  constructor
  · intro chunks limited state delivered reached
    constructor
    · intro standing
      exact need_more_awaits ((reached_follows reached).reading standing)
    · exact (reached_bounded limited reached).buffer
  · intro state history reached
    have bounded := run_server_bounded reached
    exact ⟨bounded.awaits, bounded.buffer⟩

/-- A frame, and another frame in front of its last two bytes, in chunks of two. -/
def twoFrames : List (List Byte) :=
  [[0, 0], [0, 1], [42, 0], [0, 0], [2, 9], [8, 7]]

/-- The same bytes as answers of the kernel to the echo server, which also writes
the echo of the first frame. -/
def twoFramesServed : List Choice :=
  [{ mask := .read }, { recv := [.received [0, 0]] }, {}, { recv := [.received [0, 1]] }, {},
    { recv := [.failed .eintr, .received [42, 0]] }, {}, { send := [.sent 5] }, {}, {},
    { recv := [.received [0, 0]] }, {}, { recv := [.received [2, 9]] }, {}]

/-- Under a cap of two bytes, in chunks of two. Behind a decode loop that has
delivered the first frame and stopped in the second, the buffer holds five bytes,
one less than that frame. The next chunk takes the buffer to seven bytes, which is
as close to the bound as a buffer that awaited more can come. The echo server
awaits its next input with the same five bytes. -/
theorem read_buffer_bounded_second_frame :
    (∃ state, Reaches (receiver (lp64 .little) 2) (receiving ⟨7⟩ twoFrames) state [[42]] ∧
      state.phase = .reading ∧ state.conn.readBuf = [0, 0, 0, 2, 9] ∧
      AwaitsMore 2 state.conn.readBuf) ∧
    (∃ state, Reaches (receiver (lp64 .little) 2) (receiving ⟨7⟩ twoFrames) state [[42]] ∧
      state.conn.readBuf = [0, 0, 0, 2, 9, 8, 7] ∧ state.conn.readBuf.length ≤ 4 + 2 + 2) ∧
    (∃ state history, Reaches (echoServer .little 2 2) (opened ⟨7⟩) state history ∧
      state.phase = .receiving false ∧ state.slot.conn.readBuf = [0, 0, 0, 2, 9] ∧
      AwaitsMore 2 state.slot.conn.readBuf) := by
  obtain ⟨receives, serves⟩ := read_buffer_bounded .little 2 2 ⟨7⟩
  refine ⟨?_, ?_, ?_⟩
  · obtain ⟨state, delivered, reached, observed⟩ :=
      replay_exhibits (receiver (lp64 .little) 2) (receiving ⟨7⟩ twoFrames)
        (fun final => decide (final.2 = [[42]] ∧ final.1.phase = .reading ∧
          final.1.conn.readBuf = [0, 0, 0, 2, 9])) (List.replicate 11 ()) (by decide)
    obtain ⟨rfl, reading, buffer⟩ := of_decide_eq_true observed
    exact ⟨state, reached, reading, buffer,
      (receives twoFrames (by decide) state _ reached).1 reading⟩
  · obtain ⟨state, delivered, reached, observed⟩ :=
      replay_exhibits (receiver (lp64 .little) 2) (receiving ⟨7⟩ twoFrames)
        (fun final => decide (final.2 = [[42]] ∧
          final.1.conn.readBuf = [0, 0, 0, 2, 9, 8, 7])) (List.replicate 12 ()) (by decide)
    obtain ⟨rfl, buffer⟩ := of_decide_eq_true observed
    exact ⟨state, reached, buffer, (receives twoFrames (by decide) state _ reached).2⟩
  · obtain ⟨state, history, reached, observed⟩ :=
      replay_exhibits (echoServer .little 2 2) (opened ⟨7⟩)
        (fun final => decide (final.1.phase = .receiving false ∧
          final.1.slot.conn.readBuf = [0, 0, 0, 2, 9])) twoFramesServed (by decide)
    obtain ⟨phase, buffer⟩ := of_decide_eq_true observed
    exact ⟨state, history, reached, phase, buffer,
      (serves state history reached).1 (by rw [phase]; rfl)⟩

end TcpServer.ReadBufferBound
