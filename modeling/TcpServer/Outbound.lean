import Mathlib.Algebra.GroupWithZero.Nat
import TcpServer.FrameEncoder
import TcpServer.SocketIo
import TcpServer.Transition

/-!
# The outbound side of a connection

Bytes enter the write buffer through `append_write` and `append_encoded_frame`
and leave it through `flush_write_nonblocking`. The system below lets the three
be called on one connection in any order, with any answers of the kernel to the
send calls, and records what each call appended, what the kernel accepted and
what was returned.

The recorded bytes are those of the kernel's own answers, also where the call
reports an error; that an error accepts nothing is proved.
-/

namespace TcpServer.Outbound

open FrameDecoder FrameEncoder SocketIo Transition

/-- `append_encoded_frame` on a connection: the vector is its write buffer, and the
read buffer is not touched. -/
def appendEncodedFrameTo (conn : Connection) (payload : List Byte) (maxPayloadBytes : UInt64) :
    Except Fault (Except FrameEncodeError Unit × Connection) := do
  let (result, writeBuf) ← appendEncodedFrame conn.writeBuf payload maxPayloadBytes
  return (result, { conn with writeBuf })

/-- The three operations on the write buffer, in any order and with any arguments. -/
inductive Call where
  | appendWrite (data : List Byte)
  | appendEncodedFrame (payload : List Byte) (maxPayloadBytes : UInt64)
  | flushWriteNonblocking (answers : List SendAnswer)

/-- What they do to the bytes: some are appended, and the kernel accepts some. A
refusal appends nothing. -/
inductive Event where
  | appended (data : List Byte)
  | encoded (payload : List Byte)
  | refused (error : FrameEncodeError)
  | flushed (accepted : List Byte) (result : Except SendError Nat)
deriving DecidableEq, Repr

/-- One call on the connection; a fault ends the run. The answers of the kernel come
with the call. -/
def outboundStep (state : Except Fault Connection) (call : Call) :
    Option (Except Fault Connection × List Event) :=
  match state with
  | .error _ => none
  | .ok conn =>
      match call with
      | .appendWrite data => some (.ok (conn.appendWrite data), [.appended data])
      | .appendEncodedFrame payload maxPayloadBytes =>
          match appendEncodedFrameTo conn payload maxPayloadBytes with
          | .error fault => some (.error fault, [])
          | .ok (.error error, after) => some (.ok after, [.refused error])
          | .ok (.ok (), after) => some (.ok after, [.encoded payload])
      | .flushWriteNonblocking answers =>
          match flushWriteNonblocking conn answers with
          | none => none
          | some (.error fault) => some (.error fault, [])
          | some (.ok (result, after)) =>
              some (.ok after, [.flushed (acceptedBytes conn.writeBuf answers) result])

/-- All sequences of such operations. A fault ends the run. -/
def outbound : System (Except Fault Connection) Call Event where
  step := outboundStep

/-- Everything that was successfully appended, in order, whether as it is or as a
frame. -/
def appended (history : List Event) : List Byte :=
  history.flatMap fun event => match event with
    | .appended data => data
    | .encoded payload => frame payload
    | _ => []

/-- Everything that the kernel accepted, in order, also in flushes that ended with an
error. -/
def accepted (history : List Event) : List Byte :=
  history.flatMap fun event => match event with
    | .flushed bytes _ => bytes
    | _ => []

/-- The counts that the flushes returned. A flush that ended with an error returned
none. -/
def returned (history : List Event) : List Nat :=
  history.filterMap fun event => match event with
    | .flushed _ (.ok count) => some count
    | _ => none

/-- The call that emitted the event returned an error. -/
def Event.failed : Event → Bool
  | .refused _ | .flushed _ (.error _) => true
  | _ => false

/-- What the kernel may answer to a send of the pending bytes: after any number
of interruptions it accepts a nonempty prefix of them or fails. -/
def honest (pending : List Byte) (answers : List SendAnswer) : Bool :=
  match retry SendAnswer.interrupted answers with
  | none => false
  | some (.sent count) => decide (1 ≤ count ∧ count ≤ pending.length)
  | some (.failed _) => true

/-- Flush until 0 is returned or an error, against a kernel that answers each
round as it likes. The counts that were returned before are part of the outcome. -/
def drainLoop (kernel : Nat → List Byte → List SendAnswer) :
    Nat → Nat → Connection → Option (Except Fault (List Nat × Except SendError Unit × Connection))
  | 0, _, _ => none
  | fuel + 1, round, conn =>
      match flushWriteNonblocking conn (kernel round conn.writeBuf) with
      | none => none
      | some (.error fault) => some (.error fault)
      | some (.ok (.error error, after)) => some (.ok ([], .error error, after))
      | some (.ok (.ok count, after)) =>
          if count = 0 then some (.ok ([], .ok (), after))
          else
            match drainLoop kernel fuel (round + 1) after with
            | some (.ok (counts, outcome)) => some (.ok (count :: counts, outcome))
            | unfinished => unfinished

section Flushing

variable {conn after : Connection} {answers : List SendAnswer}

/-- A send call that ends in an error has accepted nothing. -/
theorem failed_flush_accepts_nothing {error : SendError} (valid : conn.socket.valid = true)
    (flushed : flushWriteNonblocking conn answers = some (.ok (.error error, after))) :
    acceptedBytes conn.writeBuf answers = [] := by
  by_cases empty : conn.writeBuf = []
  · simp [flushWriteNonblocking, empty] at flushed
  · cases answered : retry SendAnswer.interrupted answers with
    | none => simp [acceptedBytes, answered]
    | some answer =>
      cases answer with
      | failed errno => simp [acceptedBytes, answered]
      | sent count =>
        by_cases nothing : count = 0
        · simp [acceptedBytes, answered, nothing]
        · by_cases within : count ≤ conn.writeBuf.length
          · simp [flushWriteNonblocking, empty, valid, answered, nothing, Nat.not_lt.mpr within,
              Connection.consume_write_within conn count within, bind, Except.bind, pure,
              Except.pure] at flushed
          · simp [flushWriteNonblocking, empty, valid, answered, Nat.not_le.mp within] at flushed

/-- All that a flush can do, with the bytes its kernel accepted: find the buffer
empty, fail and leave the buffer alone, or hand over its front. -/
theorem flush_outcome_cases {outcome : Except Fault (Except SendError Nat × Connection)}
    (valid : conn.socket.valid = true)
    (flushed : flushWriteNonblocking conn answers = some outcome) :
    (conn.writeBuf = [] ∧ acceptedBytes conn.writeBuf answers = [] ∧ outcome = .ok (.ok 0, conn)) ∨
    (conn.writeBuf ≠ [] ∧ acceptedBytes conn.writeBuf answers = [] ∧
      ∃ error, outcome = .ok (.error error, conn)) ∨
    (∃ count, 0 < count ∧ count ≤ conn.writeBuf.length ∧
      acceptedBytes conn.writeBuf answers = conn.writeBuf.take count ∧
      outcome = .ok (.ok count, { conn with writeBuf := conn.writeBuf.drop count })) := by
  rcases flush_cases flushed with ⟨empty, returned⟩ | ⟨pending, error, returned⟩ | sent
  · refine Or.inl ⟨empty, ?_, returned⟩
    rw [empty, acceptedBytes]
    split <;> simp
  · subst returned
    exact Or.inr (Or.inl ⟨pending, failed_flush_accepts_nothing valid flushed, error, rfl⟩)
  · exact Or.inr (Or.inr sent)

/-- A flush to an honest kernel returns. -/
theorem flush_returns (valid : conn.socket.valid = true)
    (answering : conn.writeBuf ≠ [] → honest conn.writeBuf answers = true) :
    ∃ outcome, flushWriteNonblocking conn answers = some outcome := by
  apply Option.ne_none_iff_exists'.mp
  by_cases empty : conn.writeBuf = []
  · simp [flushWriteNonblocking, empty]
  · have answersProperly := answering empty
    unfold honest at answersProperly
    cases answered : retry SendAnswer.interrupted answers with
    | none => simp [answered] at answersProperly
    | some answer =>
      simp only [answered] at answersProperly
      cases answer with
      | failed errno =>
        by_cases blocks : errno = .eagain ∨ errno = .ewouldblock <;>
          simp [flushWriteNonblocking, empty, valid, answered, blocks]
      | sent count =>
        obtain ⟨positive, within⟩ := of_decide_eq_true answersProperly
        have nonzero : count ≠ 0 := by omega
        simp [flushWriteNonblocking, empty, valid, answered, nonzero, Nat.not_lt.mpr within]

end Flushing

/-- All that one call can do to a connection with a valid socket: append bytes, append
a frame, refuse a payload, remove what the kernel has taken, or report an error and
leave everything as it was. -/
theorem outbound_step_cases {conn : Connection} {call : Call} {next : Except Fault Connection}
    {events : List Event} (valid : conn.socket.valid = true)
    (stepped : outboundStep (.ok conn) call = some (next, events)) :
    (∃ data, next = .ok (conn.appendWrite data) ∧ events = [.appended data]) ∨
    (∃ payload, next = .ok (conn.appendWrite (frame payload)) ∧ events = [.encoded payload]) ∨
    (∃ error, next = .ok conn ∧ events = [.refused error]) ∨
    (conn.writeBuf = [] ∧ next = .ok conn ∧ events = [.flushed [] (.ok 0)]) ∨
    (conn.writeBuf ≠ [] ∧ ∃ error, next = .ok conn ∧ events = [.flushed [] (.error error)]) ∨
    (∃ count, 0 < count ∧ count ≤ conn.writeBuf.length ∧
      next = .ok { conn with writeBuf := conn.writeBuf.drop count } ∧
      events = [.flushed (conn.writeBuf.take count) (.ok count)]) := by
  cases call with
  | appendWrite data =>
    cases stepped
    exact Or.inl ⟨data, rfl, rfl⟩
  | appendEncodedFrame payload maxPayloadBytes =>
    by_cases fits : payload.length ≤ payloadCap maxPayloadBytes
    · simp only [outboundStep, appendEncodedFrameTo, append_encoded_frame_exact, fits, bind,
        Except.bind, pure, Except.pure, ↓reduceIte] at stepped
      cases stepped
      exact Or.inr (Or.inl ⟨payload, rfl, rfl⟩)
    · simp only [outboundStep, appendEncodedFrameTo, append_encoded_frame_exact, fits, bind,
        Except.bind, pure, Except.pure, ↓reduceIte] at stepped
      cases stepped
      exact Or.inr (Or.inr (Or.inl ⟨payloadTooLarge, rfl, rfl⟩))
  | flushWriteNonblocking answers =>
    cases flushed : flushWriteNonblocking conn answers with
    | none => simp [outboundStep, flushed] at stepped
    | some outcome =>
      rcases flush_outcome_cases valid flushed with ⟨empty, nothing, returned⟩ |
        ⟨pending, nothing, error, returned⟩ | ⟨count, positive, within, taken, returned⟩
      · simp only [outboundStep, flushed, returned, nothing] at stepped
        cases stepped
        exact Or.inr (Or.inr (Or.inr (Or.inl ⟨empty, rfl, rfl⟩)))
      · simp only [outboundStep, flushed, returned, nothing] at stepped
        cases stepped
        exact Or.inr (Or.inr (Or.inr (Or.inr (Or.inl ⟨pending, error, rfl, rfl⟩))))
      · simp only [outboundStep, flushed, returned, taken] at stepped
        cases stepped
        exact Or.inr (Or.inr (Or.inr (Or.inr (Or.inr ⟨count, positive, within, rfl, rfl⟩))))

/-- What the calls on a connection so far have done to its write buffer: nothing is
lost, doubled or reordered. -/
structure Accounts (start conn : Connection) (history : List Event) : Prop where
  socket : conn.socket = start.socket
  bytes : accepted history ++ conn.writeBuf = appended history
  counts : (returned history).sum = (accepted history).length

/-- A call whose own events account for what it did keeps the accounts. -/
theorem accounts_append {start conn after : Connection} {history events : List Event}
    (accounts : Accounts start conn history) (socket : after.socket = conn.socket)
    (bytes : accepted events ++ after.writeBuf = conn.writeBuf ++ appended events)
    (counts : (returned events).sum = (accepted events).length) :
    Accounts start after (history ++ events) := by
  have appendedAll : appended (history ++ events) = appended history ++ appended events :=
    List.flatMap_append
  have acceptedAll : accepted (history ++ events) = accepted history ++ accepted events :=
    List.flatMap_append
  have returnedAll : returned (history ++ events) = returned history ++ returned events :=
    List.filterMap_append
  refine ⟨socket.trans accounts.socket, ?_, ?_⟩
  · rw [acceptedAll, appendedAll, List.append_assoc, bytes, ← List.append_assoc, accounts.bytes]
  · rw [returnedAll, acceptedAll, List.sum_append, List.length_append, accounts.counts, counts]

/-- One call keeps the accounts. -/
theorem step_accounts {start conn : Connection} {call : Call} {next : Except Fault Connection}
    {history events : List Event} (valid : start.socket.valid = true)
    (accounts : Accounts start conn history)
    (stepped : outboundStep (.ok conn) call = some (next, events)) :
    ∃ after, next = .ok after ∧ Accounts start after (history ++ events) := by
  have stillValid : conn.socket.valid = true := accounts.socket ▸ valid
  rcases outbound_step_cases stillValid stepped with ⟨data, rfl, rfl⟩ | ⟨payload, rfl, rfl⟩ |
    ⟨error, rfl, rfl⟩ | ⟨_, rfl, rfl⟩ | ⟨_, error, rfl, rfl⟩ | ⟨count, _, within, rfl, rfl⟩
  · refine ⟨_, rfl, accounts_append accounts rfl ?_ rfl⟩
    simp [accepted, appended, Connection.appendWrite]
  · refine ⟨_, rfl, accounts_append accounts rfl ?_ rfl⟩
    simp [accepted, appended, Connection.appendWrite]
  · refine ⟨_, rfl, accounts_append accounts rfl ?_ rfl⟩
    simp [accepted, appended]
  · refine ⟨_, rfl, accounts_append accounts rfl ?_ rfl⟩
    simp [accepted, appended]
  · refine ⟨_, rfl, accounts_append accounts rfl ?_ rfl⟩
    simp [accepted, appended]
  · refine ⟨_, rfl, accounts_append accounts rfl ?_ ?_⟩
    · simp [accepted, appended]
    · simp [accepted, returned, Nat.min_eq_left within]

/-- Along every run no call faults and the accounts are kept. -/
theorem run_accounts {start : Connection} {state : Except Fault Connection} {history : List Event}
    (valid : start.socket.valid = true) (fresh : start.writeBuf = [])
    (reached : Reaches outbound (.ok start) state history) :
    ∃ conn, state = .ok conn ∧ Accounts start conn history := by
  apply run_invariant (fun state history => ∃ conn, state = .ok conn ∧ Accounts start conn history)
    ?_ ?_ reached
  · exact ⟨start, rfl, rfl, by simp [accepted, appended, fresh], rfl⟩
  · rintro state history call next events _ ⟨conn, rfl, accounts⟩ _ stepped
    exact step_accounts valid accounts stepped

/-- An honest kernel answers every send of some pending bytes, in any round. It takes
at most what it is given. -/
def Honest (kernel : Nat → List Byte → List SendAnswer) : Prop :=
  ∀ round pending, pending ≠ [] → honest pending (kernel round pending) = true

/-- The drain loop ends: each round that does not end it removes at least one
byte. Induct on the fuel, which exceeds the number of pending bytes. -/
theorem drain_loop_ends (kernel : Nat → List Byte → List SendAnswer) (answering : Honest kernel)
    (fuel round : Nat) (conn : Connection) (valid : conn.socket.valid = true)
    (enough : conn.writeBuf.length < fuel) :
    ∃ counts outcome final, drainLoop kernel fuel round conn = some (.ok (counts, outcome, final)) ∧
      final.writeBuf = conn.writeBuf.drop counts.sum ∧
      (outcome = .ok () → final.writeBuf = []) := by
  induction fuel generalizing round conn with
  | zero => exact absurd enough (Nat.not_lt_zero _)
  | succ fuel inductionHypothesis =>
    obtain ⟨outcome, flushed⟩ := flush_returns valid (answering round conn.writeBuf)
    rcases flush_cases flushed with ⟨empty, rfl⟩ | ⟨_, error, rfl⟩ |
      ⟨count, positive, within, _, rfl⟩
    · exact ⟨[], .ok (), conn, by simp [drainLoop, flushed], by simp [empty], fun _ => empty⟩
    · exact ⟨[], .error error, conn, by simp [drainLoop, flushed], by simp, nofun⟩
    · have smaller : (conn.writeBuf.drop count).length < fuel := by
        rw [List.length_drop]
        omega
      obtain ⟨counts, outcome, final, ended, left, whole⟩ :=
        inductionHypothesis (round + 1) { conn with writeBuf := conn.writeBuf.drop count } valid
          smaller
      have nonzero : count ≠ 0 := Nat.ne_of_gt positive
      refine ⟨count :: counts, outcome, final, ?_, ?_, whole⟩
      · simp [drainLoop, flushed, nonzero, ended]
      · rw [left, List.drop_drop, List.sum_cons]

/-- Outbound byte conservation. Start from a connection with a valid socket and an
empty write buffer. After any calls, against any kernel: no call has faulted; the
bytes the kernel accepted, followed by the write buffer, are what was successfully
appended, in order; and the returned counts add up to the number of accepted
bytes. A further call that returns an error leaves the write buffer unchanged, and
a flush returns 0 exactly when the buffer was empty. An honest kernel makes every
flush return, and flushing until 0 or an error ends with the buffer empty, or at
an error with what the successful flushes before it left. -/
theorem outbound_conserved (start : Connection) (valid : start.socket.valid = true)
    (fresh : start.writeBuf = []) (state : Except Fault Connection) (history : List Event)
    (reached : Reaches outbound (.ok start) state history) :
    ∃ conn, state = .ok conn ∧
      accepted history ++ conn.writeBuf = appended history ∧
      (returned history).sum = (accepted history).length ∧
      (∀ call next events, outboundStep (.ok conn) call = some (next, events) →
        ∃ after, next = .ok after ∧
          (∀ event ∈ events, event.failed = true → after.writeBuf = conn.writeBuf) ∧
          ∀ taken result, .flushed taken result ∈ events →
            (result = .ok 0 ↔ conn.writeBuf = [])) ∧
      (∀ answers, (conn.writeBuf ≠ [] → honest conn.writeBuf answers = true) →
        ∃ next, outboundStep (.ok conn) (.flushWriteNonblocking answers) = some next) ∧
      ∀ kernel, Honest kernel → ∀ round fuel, conn.writeBuf.length < fuel →
        ∃ counts outcome final,
          drainLoop kernel fuel round conn = some (.ok (counts, outcome, final)) ∧
            final.writeBuf = conn.writeBuf.drop counts.sum ∧
            (outcome = .ok () → final.writeBuf = []) := by
  obtain ⟨conn, rfl, accounts⟩ := run_accounts valid fresh reached
  have stillValid : conn.socket.valid = true := accounts.socket ▸ valid
  refine ⟨conn, rfl, accounts.bytes, accounts.counts, ?_, ?_, ?_⟩
  · intro call next events stepped
    rcases outbound_step_cases stillValid stepped with ⟨data, rfl, rfl⟩ | ⟨payload, rfl, rfl⟩ |
      ⟨error, rfl, rfl⟩ | ⟨empty, rfl, rfl⟩ | ⟨pending, error, rfl, rfl⟩ |
      ⟨count, positive, within, rfl, rfl⟩
    · exact ⟨_, rfl, by simp [Event.failed], by simp⟩
    · exact ⟨_, rfl, by simp [Event.failed], by simp⟩
    · exact ⟨_, rfl, by simp, by simp⟩
    · exact ⟨_, rfl, by simp, by simp [empty]⟩
    · exact ⟨_, rfl, by simp, by simp [pending]⟩
    · have pending : conn.writeBuf ≠ [] := List.ne_nil_of_length_pos (by omega)
      have nonzero : count ≠ 0 := Nat.ne_of_gt positive
      exact ⟨_, rfl, by simp [Event.failed], by simp [pending, nonzero]⟩
  · intro answers answering
    obtain ⟨outcome, flushed⟩ := flush_returns stillValid answering
    cases outcome with
    | error fault => exact ⟨(.error fault, []), by simp only [outboundStep, flushed]⟩
    | ok pair =>
      exact ⟨(.ok pair.2, [.flushed (acceptedBytes conn.writeBuf answers) pair.1]), by
        simp only [outboundStep, flushed]⟩
  · intro kernel answering round fuel enough
    exact drain_loop_ends kernel answering fuel round conn stillValid enough

/-- A partial send between two appends, an interruption and a full send buffer. -/
def partialSends : List Call :=
  [.appendWrite [1, 2, 3], .flushWriteNonblocking [.failed .eintr, .sent 2],
    .appendEncodedFrame [7] 1, .appendEncodedFrame [7, 7] 1,
    .flushWriteNonblocking [.failed .eagain], .flushWriteNonblocking [.sent 3]]

/-- Conservation on such a run, which leaves bytes in the buffer. -/
theorem outbound_conserved_partial :
    ∃ (conn : Connection) (history : List Event),
      Reaches outbound (.ok { socket := ⟨4⟩ }) (.ok conn) history ∧ conn.writeBuf = [0, 1, 7] ∧
        accepted history ++ conn.writeBuf = appended history := by
  obtain ⟨state, history, reached, observed⟩ :=
    replay_exhibits outbound (.ok { socket := ⟨4⟩ })
      (fun final => match final.1 with
        | .ok conn => decide (conn.writeBuf = [0, 1, 7])
        | .error _ => false) partialSends (by decide)
  obtain ⟨conn, rfl, conserved, _⟩ :=
    outbound_conserved { socket := ⟨4⟩ } (by decide) rfl state history reached
  exact ⟨conn, history, reached, of_decide_eq_true observed, conserved⟩

end TcpServer.Outbound
