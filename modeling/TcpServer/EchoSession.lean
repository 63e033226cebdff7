import TcpServer.EchoConservation
import TcpServer.EchoService

/-!
# One session of the echo service

In each round of a client there is at most one frame on its connection. Either it is
on its way to the server, or the server has decoded it and it is on its way back;
what client, pipes and buffers hold of it is the whole frame, or what the client has
handed over of it. Every step that a client, the kernel or a handler takes on the
connection keeps this, and with it the comparison of the client succeeds.

The same argument counts the rounds: a frame is counted where the server has flushed
its echo.
-/

namespace TcpServer.EchoService

open EchoClient EchoConnection EchoConservation FrameEncoder FrameDecoder SocketIo Transition
open Pipes
open EventLoop (PollEvent Server kMaxPayload scratchSize)

/-- Where the frame of the current round is. -/
inductive Exchange (session : Session) (conn : Connection) : Prop where
  | request (nothing : session.client.got = []) (returning : session.down.contents = [])
      (unsent : conn.writeBuf = [])
      (balance : conn.readBuf ++ session.up.contents = session.client.sent)
  | reply (whole : session.client.sent = frame session.client.payload)
      (balance : session.client.got ++ session.down.contents ++ conn.writeBuf =
        frame session.client.payload)
      (consumed : conn.readBuf = []) (asked : session.up.contents = [])

/-- A handler is in the loop of `try_flush_writes`, for either caller. -/
def inFlush : Option EchoConnection.Phase → Bool
  | some (.flushing _) => true
  | _ => false

/-- A handler is in the decode loop, or in a call from there. The read buffer may hold
a whole frame then. -/
def inDecode : Option EchoConnection.Phase → Bool
  | some (.decoding _) | some (.flushing (.readHandler _)) => true
  | _ => false

/-- What holds of a session and its slot, with the handler that works on the slot. The
server's steps and the client's keep it alike. -/
structure SessionSound (session : Session) (slot : ConnSlot)
    (handler : Option EchoConnection.Phase) : Prop where
  client : session.client.Sound
  exchange : Exchange session slot.conn
  upward : session.up.tail = .open ↔ session.client.phase ≠ .finished
  downward : session.stage ≠ .dropped → session.down.tail = .open
  unconnected : session.client.phase = .connecting ↔ session.stage = .unconnected
  dropped : session.stage = .dropped → session.client.phase = .finished
  awaited : slot.awaitingReplyFlush = true → slot.conn.writeBuf ≠ [] ∨ inFlush handler = true
  decoded : slot.conn.readBuf = frame session.client.payload → inDecode handler = true

/-- A slot that has seen nothing. It stands for the slot of a session that has none.
-/
def emptySlot : ConnSlot where
  conn := { socket := {} }

/-- The echoes that the server has written to its buffer, for this session: those that
came back, and one that is on its way. -/
def Session.replied (session : Session) (slot : ConnSlot) : Nat :=
  session.client.completed +
    (if session.client.got ++ session.down.contents ++ slot.conn.writeBuf = [] then 0 else 1)

/-- The echoes that the server has not counted yet: one, while a reply waits to be
flushed. -/
def awaiting (slot : ConnSlot) : Nat := if slot.awaitingReplyFlush then 1 else 0

/-- A frame is not empty. -/
theorem frame_nonempty (payload : List Byte) : frame payload ≠ [] := by
  intro empty
  have length := congrArg List.length empty
  rw [frame_length] at length
  simp at length

section Client

variable {session : Session} {slot : ConnSlot} {handler : Option EchoConnection.Phase}

/-- The client hands over its frame from the front. -/
theorem sent_prefix {client : Client} (sound : client.Sound) :
    client.sent <+: frame client.payload := by
  obtain ⟨_, standing⟩ := sound
  unfold Client.sent
  cases place : client.phase with
  | sending round wireOut off =>
    simp only [place] at standing
    obtain ⟨_, rfl, _⟩ := standing
    exact List.take_prefix off _
  | receiving round acc => exact List.prefix_refl _
  | connecting | encoding | finished | aborted | faulted => exact List.nil_prefix

/-- The echo of a frame is counted from the moment the server has written it. -/
theorem replied_reply (session : Session) (slot : ConnSlot)
    (balance : session.client.got ++ session.down.contents ++ slot.conn.writeBuf =
      frame session.client.payload) : session.replied slot = session.client.completed + 1 := by
  rw [Session.replied, balance, if_neg (frame_nonempty _)]

/-- Before anything was echoed in this round, the replies are those of the completed
rounds. -/
theorem replied_request (session : Session) (slot : ConnSlot)
    (nothing : session.client.got = []) (returning : session.down.contents = [])
    (unsent : slot.conn.writeBuf = []) : session.replied slot = session.client.completed := by
  simp [Session.replied, nothing, returning, unsent]

/-- Before the whole frame is sent, it is on its way to the server. -/
theorem exchange_unsent {conn : Connection} (exchange : Exchange session conn)
    (part : session.client.sent ≠ frame session.client.payload) :
    session.client.got = [] ∧ session.down.contents = [] ∧ conn.writeBuf = [] ∧
      conn.readBuf ++ session.up.contents = session.client.sent := by
  cases exchange with
  | request nothing returning unsent balance => exact ⟨nothing, returning, unsent, balance⟩
  | reply whole => exact absurd whole part

/-- The head of the client's loop over the rounds: the next frame, or the end.
Everything of the last round has come back, so the exchange starts again with nothing
on its way. -/
theorem encode_sound {round : Nat} (sound : SessionSound session slot handler)
    (standing : session.client.phase = .encoding round) :
    SessionSound (session.goesOn (encodePass session.client round)) slot handler ∧
      (session.goesOn (encodePass session.client round)).replied slot = session.replied slot := by
  obtain ⟨⟨fits, rounds⟩, exchange, upward, downward, unconnected, dropped, awaited, decoded⟩ := sound
  simp only [standing] at rounds
  have silent : session.client.sent = [] := by simp only [Client.sent, standing]
  obtain ⟨nothing, returning, unsent, balance⟩ := exchange_unsent exchange
    (silent ▸ (frame_nonempty _).symm)
  have connected : session.stage ≠ .unconnected := fun fresh => by
    simpa [standing] using unconnected.mpr fresh
  have held : session.stage ≠ .dropped := fun gone => by simpa [standing] using dropped gone
  have opened : session.up.tail = .open := upward.mpr (by simp [standing])
  rw [silent] at balance
  rw [replied_request session slot nothing returning unsent, Client.completed, standing]
  by_cases more : round < session.client.roundTrips
  · rw [encode_pass_more fits more]
    have begins : 0 < (frame session.client.payload).length :=
      List.length_pos_iff.mpr (frame_nonempty _)
    refine ⟨⟨⟨fits, more, rfl, begins⟩, ?_, ?_, downward, ?_, ?_, awaited, decoded⟩, ?_⟩
    · exact .request rfl returning unsent (by simpa [Session.goesOn, Client.sent] using balance)
    · simp [Session.goesOn, opened]
    · simp [Session.goesOn, connected]
    · exact fun gone => absurd gone held
    · exact replied_request (session.goesOn _) slot rfl returning unsent
  · have last : encodePass session.client round = .finished := by
      simp only [encodePass, more, ↓reduceIte]
    rw [last]
    refine ⟨⟨⟨fits, trivial⟩, ?_, ?_, downward, ?_, fun _ => rfl, awaited, decoded⟩,
      ?_⟩
    · exact .request rfl returning unsent (by simpa [Session.goesOn, Client.sent] using balance)
    · simp [Session.goesOn, Pipe.close, opened]
    · simp [Session.goesOn, connected]
    · refine (replied_request (session.goesOn .finished) slot rfl returning unsent).trans ?_
      simp only [Session.goesOn, Client.completed]
      omega

/-- A call of `send_all` puts the next part of the frame on its way. What the client
has sent is a prefix of the frame, longer by what the kernel has taken. -/
theorem send_sound {round off count : Nat} {wireOut : List Byte}
    (sound : SessionSound session slot handler)
    (standing : session.client.phase = .sending round wireOut off)
    (within : count ≤ wireOut.length - off) :
    let next := { session with
      up := session.up.write ((wireOut.drop off).take count) }.goesOn
        (sendLoop round wireOut (off + count))
    SessionSound next slot handler ∧ next.replied slot = session.replied slot := by
  intro next
  obtain ⟨⟨fits, rounds⟩, exchange, upward, downward, unconnected, dropped, awaited, decoded⟩ := sound
  simp only [standing] at rounds
  obtain ⟨more, rfl, short⟩ := rounds
  have part : session.client.sent = (frame session.client.payload).take off := by
    simp only [Client.sent, standing]
  obtain ⟨nothing, returning, unsent, balance⟩ := exchange_unsent exchange (by
    rw [part]
    intro whole
    have length := congrArg List.length whole
    rw [List.length_take] at length
    omega)
  have connected : session.stage ≠ .unconnected := fun fresh => by
    simpa [standing] using unconnected.mpr fresh
  have held : session.stage ≠ .dropped := fun gone => by simpa [standing] using dropped gone
  have opened : session.up.tail = .open := upward.mpr (by simp [standing])
  have moved : slot.conn.readBuf ++
      (session.up.write (((frame session.client.payload).drop off).take count)).contents =
        (frame session.client.payload).take (off + count) := by
    rw [Pipe.write_contents opened, ← List.append_assoc, balance, part, List.take_add]
  rw [replied_request session slot nothing returning unsent, Client.completed, standing]
  by_cases remaining : off + count < (frame session.client.payload).length
  · have going : next = { session with
        client := { session.client with
          phase := .sending round (frame session.client.payload) (off + count) }
        up := session.up.write (((frame session.client.payload).drop off).take count) } := by
      simp [next, Session.goesOn, sendLoop, remaining]
    rw [going]
    refine ⟨⟨⟨fits, more, rfl, remaining⟩, .request rfl returning unsent moved, ?_, downward, ?_,
      fun gone => absurd gone held, awaited, decoded⟩, replied_request _ slot rfl returning unsent⟩
    · simp [opened]
    · simp [connected]
  · have waiting : next = { session with
        client := { session.client with phase := .receiving round [] }
        up := session.up.write (((frame session.client.payload).drop off).take count) } := by
      simp [next, Session.goesOn, sendLoop, remaining]
    rw [List.take_of_length_le (Nat.not_lt.mp remaining)] at moved
    rw [waiting]
    refine ⟨⟨⟨fits, more, List.length_pos_iff.mpr (frame_nonempty _)⟩,
      .request rfl returning unsent moved, ?_, downward, ?_, fun gone => absurd gone held,
      awaited, decoded⟩, replied_request _ slot rfl returning unsent⟩
    · simp [opened]
    · simp [connected]

/-- A call of `recv_one_echo_frame` takes a part of the echo. When it was the last one
the comparison succeeds and the round is over. -/
theorem receive_sound (endian : Endian) (count : Nat) {round : Nat} {acc : List Byte}
    (sound : SessionSound session slot handler)
    (standing : session.client.phase = .receiving round acc)
    (arrived : session.down.arrived ≠ []) :
    let next := { session with down := session.down.read count }.goesOn
      (checkFrame endian session.client round (acc ++ session.down.arrived.take count))
    SessionSound next slot handler ∧ next.replied slot = session.replied slot := by
  intro next
  obtain ⟨⟨fits, rounds⟩, exchange, upward, downward, unconnected, dropped, awaited, decoded⟩ := sound
  simp only [standing] at rounds
  have connected : session.stage ≠ .unconnected := fun fresh => by
    simpa [standing] using unconnected.mpr fresh
  have held : session.stage ≠ .dropped := fun gone => by simpa [standing] using dropped gone
  have opened : session.up.tail = .open := upward.mpr (by simp [standing])
  cases exchange with
  | request _ returning =>
    rw [Pipe.contents] at returning
    exact absurd (List.append_eq_nil_iff.mp returning).1 arrived
  | reply whole balance consumed asked =>
    have pieces := session.down.read_contents count
    rw [replied_reply session slot balance, Client.completed, standing]
    simp only [Client.got, standing] at balance
    rw [← pieces] at balance
    by_cases last : acc ++ session.down.arrived.take count = frame session.client.payload
    · -- The whole frame is back: nothing of it is left on the connection.
      have behind : (session.down.read count).contents ++ slot.conn.writeBuf = [] := by
        rw [← List.append_assoc acc, last, List.append_assoc] at balance
        exact List.append_right_eq_self.mp balance
      obtain ⟨returning, unsent⟩ := List.append_eq_nil_iff.mp behind
      have done : next = { session with
          client := { session.client with phase := .encoding (round + 1) }
          down := session.down.read count } := by
        simp [next, Session.goesOn, last, check_frame_whole endian fits]
      rw [done]
      refine ⟨⟨⟨fits, rounds.1⟩, .request rfl returning unsent ?_, ?_, downward, ?_,
        fun gone => absurd gone held, awaited, decoded⟩, replied_request _ slot rfl returning unsent⟩
      · simp [Client.sent, consumed, asked]
      · simp [opened]
      · simp [connected]
    · have begins : acc ++ session.down.arrived.take count <+: frame session.client.payload :=
        ⟨(session.down.read count).contents ++ slot.conn.writeBuf, by rw [← balance]; simp⟩
      have going : next = { session with
          client := { session.client with
            phase := .receiving round (acc ++ session.down.arrived.take count) }
          down := session.down.read count } := by
        simp [next, Session.goesOn, check_frame_part endian fits begins last]
      have short : (acc ++ session.down.arrived.take count).length <
          (frame session.client.payload).length :=
        lt_of_le_of_ne begins.length_le fun same => last (begins.eq_of_length same)
      have kept : (acc ++ session.down.arrived.take count) ++
          (session.down.read count).contents ++ slot.conn.writeBuf =
            frame session.client.payload := by
        rw [← balance]
        simp
      rw [going]
      refine ⟨⟨⟨fits, rounds.1, short⟩, .reply rfl kept consumed asked, ?_, downward, ?_,
        fun gone => absurd gone held, awaited, decoded⟩, replied_reply _ slot kept⟩
      · simp [opened]
      · simp [connected]

/-- Every call of a connected client keeps its session in order, and neither its
replies nor its stage change. One lemma for each phase in which it makes a call. -/
theorem client_call_sound {endian : Endian} {capacity count : Nat} {next : Session}
    (sound : SessionSound session slot handler)
    (called : clientCall endian capacity session count = some next) :
    SessionSound next slot handler ∧ next.replied slot = session.replied slot ∧
      next.stage = session.stage := by
  unfold clientCall at called
  cases standing : session.client.phase with
  | encoding round =>
    simp only [standing] at called
    cases called
    exact ⟨(encode_sound sound standing).1, (encode_sound sound standing).2, rfl⟩
  | sending round wireOut off =>
    have held : session.stage ≠ .dropped := fun gone => by
      simpa [standing] using sound.dropped gone
    simp only [standing, held, ↓reduceIte] at called
    split at called
    · rename_i allowed
      obtain ⟨positive, within, _⟩ := allowed
      simp only [sendPass, Nat.ne_of_gt positive, within, ↓reduceIte, Option.map_some] at called
      cases called
      have sent := send_sound sound standing within
      exact ⟨sent.1, sent.2, rfl⟩
    · cases called
  | receiving round acc =>
    simp only [standing] at called
    split at called
    · rename_i arrived
      split at called
      · rename_i allowed
        obtain ⟨positive, within, room⟩ := allowed
        have some_bytes : session.down.arrived.take count ≠ [] := by
          simp [arrived, Nat.ne_of_gt positive]
        have fits : (session.down.arrived.take count).length ≤
            accSize session.client - acc.length := by
          rw [List.length_take]
          omega
        simp only [recvPass, some_bytes, fits, ↓reduceIte, Option.map_some] at called
        cases called
        have received := receive_sound endian count sound standing arrived
        exact ⟨received.1, received.2, rfl⟩
      · cases called
    · have going : session.stage ≠ .dropped := fun gone => by
        simpa [standing] using sound.dropped gone
      simp [sound.downward going] at called
  | connecting | finished | aborted | faulted => simp [standing] at called

/-- What arrives at the server was on its way before. -/
theorem upward_sound {count : Nat} {up : Pipe Byte} (sound : SessionSound session slot handler)
    (advanced : session.up.advance count = some up) :
    SessionSound { session with up } slot handler ∧
      { session with up }.replied slot = session.replied slot := by
  have same := Pipe.advance_contents advanced
  refine ⟨⟨sound.client, ?_, ?_, sound.downward, sound.unconnected, sound.dropped,
    sound.awaited, sound.decoded⟩, rfl⟩
  · cases sound.exchange with
    | request nothing returning unsent balance =>
      exact .request nothing returning unsent (by simpa only [same] using balance)
    | reply whole balance consumed asked => exact .reply whole balance consumed (same ▸ asked)
  · rw [← sound.upward]
    rcases Pipe.advance_cases advanced with ⟨_, closed, _, _, ended⟩ | ⟨_, _, _, _, tail⟩
    · simp [closed, ended]
    · simp [tail]

/-- So was what arrives at the client. -/
theorem downward_sound {count : Nat} {down : Pipe Byte}
    (sound : SessionSound session slot handler)
    (advanced : session.down.advance count = some down) :
    SessionSound { session with down } slot handler ∧
      { session with down }.replied slot = session.replied slot := by
  have same := Pipe.advance_contents advanced
  refine ⟨⟨sound.client, ?_, sound.upward, ?_, sound.unconnected, sound.dropped,
    sound.awaited, sound.decoded⟩, by simp only [Session.replied, same]⟩
  · cases sound.exchange with
    | request nothing returning unsent balance =>
      exact .request nothing (same.trans returning) unsent balance
    | reply whole balance consumed asked =>
      exact .reply whole (by simpa only [same] using balance) consumed asked
  · intro going
    have opened := sound.downward going
    rcases Pipe.advance_cases advanced with ⟨_, closed, _⟩ | ⟨_, _, _, _, tail⟩
    · exact absurd (opened.symm.trans closed) nofun
    · exact tail.trans opened

end Client

section Handler

variable {session : Session} {slot : ConnSlot}

/-- What a pass of a handler leaves behind: a session in order on the slot that it
goes on with, or a finished one without a slot; and every echo that it has written
or counted. -/
structure PassSound (session after : Session) (slot : ConnSlot) (completions : Nat)
    (served : ServerState) : Prop where
  outcome : (serving served.phase = true ∧ after.stage = session.stage ∧
      SessionSound after served.slot (some served.phase)) ∨
    (served.phase = .peerClosed ∧ after.stage = .dropped ∧ served.slot.awaitingReplyFlush = false ∧
      SessionSound after emptySlot none ∧ after.replied emptySlot = after.replied served.slot)
  counts : served.completions + awaiting served.slot + session.replied slot =
    completions + awaiting slot + after.replied served.slot

/-- The decode loop moves the frame of the round from the read buffer to the write
buffer once it is whole. -/
theorem decode_sound (endian : Endian) {poller : SelectPoller} {completions : Nat}
    {thenWrite : Bool} (sound : SessionSound session slot (some (.decoding thenWrite))) :
    PassSound session session slot completions
      (decodePass endian kMaxPayload ⟨slot, poller, completions, .decoding thenWrite⟩
        thenWrite) := by
  obtain ⟨client, exchange, upward, downward, unconnected, dropped, awaited, decoded⟩ := sound
  rcases decode_pass_cases endian kMaxPayload ⟨slot, poller, completions, .decoding thenWrite⟩
    thenWrite with ⟨verdict, same⟩ | ⟨rejected, _⟩ | ⟨payload, rest, fits, shape, same⟩
  · rw [same]
    refine ⟨Or.inl ⟨rfl, rfl, client, exchange, upward, downward, unconnected, dropped, awaited,
      ?_⟩, rfl⟩
    intro whole
    have accepted := FrameCodec.frame_decoder_accepts endian session.client.payload [] kMaxPayload
      client.fits
    rw [List.append_nil] at accepted
    rw [whole, accepted] at verdict
    cases verdict
  · -- What is rejected would stay rejected, but the whole frame is accepted.
    exfalso
    cases exchange with
    | request nothing returning unsent balance =>
      obtain ⟨remaining, whole⟩ := sent_prefix client
      rw [← balance, List.append_assoc] at whole
      have stays := (FrameCodec.frameDecoder endian kMaxPayload).reject_stable rejected
        (session.up.contents ++ remaining)
      rw [whole, ← List.append_nil (frame _),
        FrameCodec.frame_decoder_accepts endian _ [] kMaxPayload client.fits] at stays
      cases stays
    | reply whole balance consumed =>
      obtain ⟨b0, b1, b2, b3, rest, shape, _⟩ := rejected_header rejected
      rw [consumed] at shape
      cases shape
  · cases exchange with
    | reply whole balance consumed =>
      rw [consumed] at shape
      exact absurd (List.append_eq_nil_iff.mp shape.symm).1 (frame_nonempty payload)
    | request nothing returning unsent balance =>
      obtain ⟨remaining, whole⟩ := sent_prefix client
      have cap := FrameCodec.payload_cap_bound kMaxPayload
      have split : frame payload ++ (rest ++ session.up.contents ++ remaining) =
          frame session.client.payload ++ [] := by
        rw [List.append_nil, ← whole, ← balance, shape]
        simp
      obtain ⟨rfl, behind⟩ := WireForm.frame_front_unique (Nat.lt_of_le_of_lt fits cap)
        (Nat.lt_of_le_of_lt client.fits cap) split
      obtain ⟨front, rfl⟩ := List.append_eq_nil_iff.mp behind
      obtain ⟨rfl, asked⟩ := List.append_eq_nil_iff.mp front
      have quiet : slot.awaitingReplyFlush = false := by
        by_contra waits
        have pending := awaited (by simpa using waits)
        simp [unsent, inFlush] at pending
      rw [List.append_nil] at whole
      rw [same]
      refine ⟨Or.inl ⟨rfl, rfl, client, ?_, upward, downward, unconnected, dropped,
        fun _ => Or.inr rfl, fun _ => rfl⟩, ?_⟩
      · exact .reply whole (by simp [nothing, returning, unsent]) rfl asked
      · rw [replied_request session slot nothing returning unsent,
          replied_reply session _ (by simp [nothing, returning, unsent])]
        simp only [awaiting, quiet, Bool.false_eq_true, ↓reduceIte]
        omega

/-- The receive loop takes what has arrived, finds that nothing has, or finds that the
client is done. -/
theorem take_sound {capacity count : Nat} {poller : SelectPoller} {completions : Nat}
    {thenWrite : Bool} {answer : EventLoop.Choice} {after : Session} {served : ServerState}
    {events : List EchoConnection.Event}
    (sound : SessionSound session slot (some (.receiving thenWrite)))
    (valid : slot.conn.socket.valid = true)
    (answered : callAnswer capacity session slot (.receiving thenWrite) count =
      some (answer, after))
    (passed : receivePass scratchSize ⟨slot, poller, completions, .receiving thenWrite⟩ thenWrite
      answer.recv = some (served, events)) : PassSound session after slot completions served := by
  obtain ⟨client, exchange, upward, downward, unconnected, dropped, awaited, decoded⟩ := sound
  have room : scratchSize ≠ 0 := by decide
  simp only [callAnswer] at answered
  split at answered
  · rename_i arrived
    split at answered
    · rename_i allowed
      obtain ⟨positive, within, fits⟩ := allowed
      cases answered
      have some_bytes : session.up.arrived.take count ≠ [] := by
        simp [arrived, Nat.ne_of_gt positive]
      have short : (session.up.arrived.take count).length ≤ scratchSize := by
        rw [List.length_take]
        omega
      simp only [receivePass, receiveNonblocking, room, valid, some_bytes, short, retry,
        RecvAnswer.interrupted, reduceCtorEq, beq_iff_eq, Bool.not_true, Bool.false_eq_true,
        ↓reduceIte] at passed
      cases passed
      refine ⟨Or.inl ⟨rfl, rfl, client, ?_, upward, downward, unconnected, dropped, awaited,
        fun _ => rfl⟩, rfl⟩
      cases exchange with
      | request nothing returning unsent balance =>
        refine .request nothing returning unsent ?_
        rw [Connection.appendRead, List.append_assoc, Pipe.read_contents]
        exact balance
      | reply whole balance consumed asked =>
        exact absurd (List.append_eq_nil_iff.mp asked).1 arrived
    · cases answered
  · rename_i nothing_arrived
    split at answered
    · rename_i ended
      cases answered
      -- The stream has ended, so the client is done and nothing is left anywhere.
      simp only [receivePass, receiveNonblocking, room, valid, retry, RecvAnswer.interrupted,
        reduceCtorEq, beq_iff_eq, Bool.not_true, Bool.false_eq_true, ↓reduceIte] at passed
      cases passed
      have done : session.client.phase = .finished := by
        by_contra going
        exact absurd ((upward.mpr going).symm.trans ended) (by rintro ⟨⟩)
      have silent : session.client.sent = [] := by simp only [Client.sent, done]
      obtain ⟨nothing, returning, unsent, balance⟩ := exchange_unsent exchange
        (silent ▸ (frame_nonempty _).symm)
      have quiet : slot.awaitingReplyFlush = false := by
        by_contra waits
        have pending := awaited (by simpa using waits)
        simp [unsent, inFlush] at pending
      have up : session.up.contents = [] := (List.append_eq_nil_iff.mp (balance.trans silent)).2
      refine ⟨Or.inr ⟨rfl, rfl, quiet, ⟨client, ?_, upward, fun going => absurd rfl going, ?_,
        fun _ => done, (by rintro ⟨⟩), fun whole => absurd whole.symm (frame_nonempty _)⟩, ?_⟩, ?_⟩
      · exact .request nothing (by simp [Session.hangUp, returning]) rfl
          (by simp [Session.hangUp, emptySlot, up, silent])
      · simp [Session.hangUp, done]
      · simp [Session.replied, Session.hangUp, emptySlot, Connection.clearWrite]
      · simp [awaiting, quiet, Session.replied, Session.hangUp, unsent, Connection.clearWrite]
    · cases answered
      simp only [receivePass, receiveNonblocking, room, valid, retry, RecvAnswer.interrupted,
        reduceCtorEq, beq_iff_eq, RecvAnswer.failed.injEq, Bool.not_true, Bool.false_eq_true,
        true_or, ↓reduceIte] at passed
      cases passed
      refine ⟨Or.inl ⟨?_, rfl, client, exchange, upward, downward, unconnected, dropped, ?_, ?_⟩,
        rfl⟩
      · cases thenWrite <;> rfl
      · exact fun waits => Or.inl ((awaited waits).resolve_right (by simp [inFlush]))
      · exact fun whole => absurd (decoded whole) (by simp [inDecode])

/-- The flush loop puts a part of the echo on its way back, finds no room for it, or is
done and counts it. -/
theorem flush_sound {capacity count : Nat} {poller : SelectPoller} {completions : Nat}
    {caller : Caller} {answer : EventLoop.Choice} {after : Session} {served : ServerState}
    {events : List EchoConnection.Event}
    (sound : SessionSound session slot (some (.flushing caller)))
    (valid : slot.conn.socket.valid = true) (held : session.stage ≠ .dropped)
    (answered : callAnswer capacity session slot (.flushing caller) count = some (answer, after))
    (passed : flushPass ⟨slot, poller, completions, .flushing caller⟩ caller answer.send =
      some (served, events)) : PassSound session after slot completions served := by
  obtain ⟨client, exchange, upward, downward, unconnected, dropped, awaited, decoded⟩ := sound
  have resumes : serving caller.resume = true := by cases caller <;> rfl
  have decodes : slot.conn.readBuf = frame session.client.payload →
      inDecode (some caller.resume) = true := by
    intro whole
    have inside := decoded whole
    cases caller with
    | readHandler thenWrite => rfl
    | eventLoop => simp [inDecode] at inside
  simp only [callAnswer] at answered
  split at answered
  · rename_i unsent
    cases answered
    simp only [flushPass, flushWriteNonblocking, unsent, flushed, ↓reduceIte] at passed
    cases passed
    refine ⟨Or.inl ⟨resumes, rfl, client, ?_, upward, downward, unconnected, dropped, (by rintro ⟨⟩),
      decodes⟩, ?_⟩
    · cases exchange with
      | request nothing returning unsent balance =>
        exact .request nothing returning unsent balance
      | reply whole balance consumed asked => exact .reply whole balance consumed asked
    · simp only [awaiting, Session.replied, Bool.false_eq_true, ↓reduceIte]
      omega
  · rename_i pending
    split at answered
    · cases answered
      simp only [flushPass, flushWriteNonblocking, pending, valid, retry, SendAnswer.interrupted,
        reduceCtorEq, beq_iff_eq, SendAnswer.failed.injEq, Bool.not_true, Bool.false_eq_true,
        true_or, ↓reduceIte] at passed
      cases passed
      exact ⟨Or.inl ⟨resumes, rfl, client, exchange, upward, downward, unconnected, dropped,
        fun _ => Or.inl pending, decodes⟩, rfl⟩
    · split at answered
      · rename_i allowed
        obtain ⟨positive, within, _⟩ := allowed
        cases answered
        simp only [flushPass, flushWriteNonblocking, pending, valid, retry,
          SendAnswer.interrupted, reduceCtorEq, beq_iff_eq, Bool.not_true, Bool.false_eq_true,
          gt_iff_lt, Nat.not_lt.mpr within, Nat.ne_of_gt positive,
          Connection.consume_write_within slot.conn count within, bind, Except.bind, pure,
          Except.pure, ↓reduceIte] at passed
        cases passed
        cases exchange with
        | request nothing returning unsent => exact absurd unsent pending
        | reply whole balance consumed asked =>
          have moved : session.client.got ++
              (session.down.write (slot.conn.writeBuf.take count)).contents ++
              slot.conn.writeBuf.drop count = frame session.client.payload := by
            rw [Pipe.write_contents (downward held), List.append_assoc, List.append_assoc,
              List.take_append_drop, ← List.append_assoc]
            exact balance
          refine ⟨Or.inl ⟨rfl, rfl, client, .reply whole moved consumed asked, upward, ?_,
            unconnected, dropped, fun _ => Or.inr rfl, decoded⟩, ?_⟩
          · exact fun going => (Pipe.write_tail _ _).trans (downward going)
          · rw [replied_reply session slot balance, replied_reply _ _ moved]
            rfl
      · cases answered

/-- A pass is nothing to the client. -/
theorem call_answer_client {capacity count : Nat} {phase : EchoConnection.Phase}
    {answer : EventLoop.Choice} {after : Session}
    (answered : callAnswer capacity session slot phase count = some (answer, after)) :
    after.client = session.client := by
  unfold callAnswer at answered
  repeat' split at answered
  all_goals cases answered
  all_goals rfl

/-- Every pass of a handler on the slot of a session keeps the session in order. -/
theorem pass_sound {endian : Endian} {capacity count : Nat} {poller : SelectPoller}
    {completions : Nat} {phase : EchoConnection.Phase} {answer : EventLoop.Choice}
    {after : Session} {served : ServerState} {events : List EchoConnection.Event}
    (sound : SessionSound session slot (some phase))
    (valid : slot.conn.socket.valid = true) (held : session.stage ≠ .dropped)
    (answered : callAnswer capacity session slot phase count = some (answer, after))
    (stepped : EchoConnection.serverStep endian kMaxPayload scratchSize
      ⟨slot, poller, completions, phase⟩ { recv := answer.recv, send := answer.send } =
        some (served, events)) : PassSound session after slot completions served := by
  cases phase with
  | waiting =>
    cases answered
    cases stepped
    exact ⟨Or.inl ⟨rfl, rfl, sound⟩, rfl⟩
  | receiving thenWrite => exact take_sound sound valid answered stepped
  | decoding thenWrite =>
    cases answered
    cases stepped
    exact decode_sound endian sound
  | flushing caller => exact flush_sound sound valid held answered stepped
  | peerClosed | aborted | faulted => cases stepped

end Handler

end TcpServer.EchoService
