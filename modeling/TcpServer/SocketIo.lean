import TcpServer.Connection

/-!
# Nonblocking receive and send

The POSIX branches of `receive_nonblocking` and `flush_write_nonblocking`. The
kernel is outside the repository: each operation takes the list of answers its
system call gives, one for each time the retry loop makes the call. The result
is `none` when the answers run out before the loop ends, and when an answer
breaks the contract of the system call by reporting more bytes than it was asked for.

Errors keep the code, the message and the `errno` that the source reports.
-/

namespace TcpServer.SocketIo

/-- The values of `errno` that the source distinguishes, and all others under their
numbers. -/
inductive Errno where
  | eintr
  | eagain
  | ewouldblock
  | other (number : Nat)
deriving DecidableEq, Repr

/-- The answer of `::recv`: the bytes it delivered, none at the end of the
stream, or a failure. -/
inductive RecvAnswer where
  | received (bytes : List Byte)
  | failed (errno : Errno)
deriving DecidableEq, Repr

/-- The answer of `::send`: how many bytes it took from the front, or a failure. It
may take fewer than it is given. -/
inductive SendAnswer where
  | sent (count : Nat)
  | failed (errno : Errno)
deriving DecidableEq, Repr

/-- The call of `recv` was interrupted by a signal before it delivered anything. The
loop around it tries again. -/
def RecvAnswer.interrupted (answer : RecvAnswer) : Bool := answer == .failed .eintr

/-- The call of `send` was interrupted by a signal before it took anything. The loop
around it tries again. -/
def SendAnswer.interrupted (answer : SendAnswer) : Bool := answer == .failed .eintr

/-- `do { … } while (… < 0 && errno == EINTR)` over the answers of the system call.
Without a final answer the call does not return. -/
def retry {Answer : Type} (interrupted : Answer → Bool) : List Answer → Option Answer
  | [] => none
  | answer :: later => if interrupted answer then retry interrupted later else some answer

/-- What receiving can fail with. A peer that has closed is reported as an error as
well. -/
inductive RecvErrorCode where
  | wouldBlock
  | closed
  | ioError
  | invalidArgument
deriving DecidableEq, Repr

/-- The error of receiving. `nativeError` is `none` where the source passes 0. -/
structure RecvError where
  code : RecvErrorCode
  message : String
  nativeError : Option Errno := none
deriving DecidableEq, Repr

/-- What sending can fail with. Only the first is a reason to try again later. -/
inductive SendErrorCode where
  | wouldBlock
  | ioError
deriving DecidableEq, Repr

/-- The error of sending. `nativeError` is `none` where the source passes 0. -/
structure SendError where
  code : SendErrorCode
  message : String
  nativeError : Option Errno := none
deriving DecidableEq, Repr

/-- `receive_nonblocking` on POSIX. `recv` is repeated while it is interrupted; what
it delivers goes behind the read buffer. It is `none` when the answers run out, or
report more bytes than there is room for. -/
def receiveNonblocking (conn : Connection) (scratchSize : Nat) (answers : List RecvAnswer) :
    Option (Except RecvError Nat × Connection) :=
  if scratchSize = 0 then
    some (.error { code := .invalidArgument, message := "scratch buffer is empty" }, conn)
  else if !conn.socket.valid then
    some (.error { code := .ioError, message := "connection socket is invalid" }, conn)
  else
    match retry RecvAnswer.interrupted answers with
    | none => none
    | some (.failed errno) =>
        if errno = .eagain ∨ errno = .ewouldblock then
          some (.error ⟨.wouldBlock, "recv would block", some errno⟩, conn)
        else some (.error ⟨.ioError, "recv failed", some errno⟩, conn)
    | some (.received bytes) =>
        if bytes = [] then
          some (.error { code := .closed, message := "peer closed connection" }, conn)
        else if bytes.length ≤ scratchSize then some (.ok bytes.length, conn.appendRead bytes)
        else none

/-- `flush_write_nonblocking` on POSIX. `send` is repeated while it is interrupted;
what it has taken is removed from the front of the write buffer. It is `none` when the
answers run out, or report more bytes than were handed over. -/
def flushWriteNonblocking (conn : Connection) (answers : List SendAnswer) :
    Option (Except Fault (Except SendError Nat × Connection)) :=
  if conn.writeBuf = [] then some (.ok (.ok 0, conn))
  else if !conn.socket.valid then
    some (.ok (.error { code := .ioError, message := "connection socket is invalid" }, conn))
  else
    match retry SendAnswer.interrupted answers with
    | none => none
    | some (.failed errno) =>
        if errno = .eagain ∨ errno = .ewouldblock then
          some (.ok (.error ⟨.wouldBlock, "send would block", some errno⟩, conn))
        else some (.ok (.error ⟨.ioError, "send failed", some errno⟩, conn))
    | some (.sent count) =>
        if count > conn.writeBuf.length then none
        else if count = 0 then
          some (.ok (.error { code := .ioError, message := "send returned 0" }, conn))
        else some (do
          let conn ← conn.consumeWrite count
          return (.ok count, conn))

/-- The bytes that the kernel delivered while it gave these answers. An interrupted
attempt delivers none. -/
def deliveredBytes (answers : List RecvAnswer) : List Byte :=
  match retry RecvAnswer.interrupted answers with
  | some (.received bytes) => bytes
  | _ => []

/-- The bytes that the kernel accepted from the front of `buffer` while it gave
these answers. -/
def acceptedBytes (buffer : List Byte) (answers : List SendAnswer) : List Byte :=
  match retry SendAnswer.interrupted answers with
  | some (.sent count) => buffer.take count
  | _ => []

/-- All that receiving can do: report an error and leave the connection alone,
or append what the kernel delivered to the read buffer. -/
theorem receive_cases {conn after : Connection} {scratchSize : Nat} {answers : List RecvAnswer}
    {result : Except RecvError Nat}
    (received : receiveNonblocking conn scratchSize answers = some (result, after)) :
    (∃ error, result = .error error ∧ after = conn) ∨
      (deliveredBytes answers ≠ [] ∧ (deliveredBytes answers).length ≤ scratchSize ∧
        result = .ok (deliveredBytes answers).length ∧
        after = conn.appendRead (deliveredBytes answers)) := by
  unfold receiveNonblocking at received
  split at received
  · cases received
    exact Or.inl ⟨_, rfl, rfl⟩
  · split at received
    · cases received
      exact Or.inl ⟨_, rfl, rfl⟩
    · cases answered : retry RecvAnswer.interrupted answers with
      | none => simp [answered] at received
      | some answer =>
        simp only [answered] at received
        cases answer with
        | failed errno =>
          simp only at received
          split at received <;> cases received <;> exact Or.inl ⟨_, rfl, rfl⟩
        | received bytes =>
          have delivered : deliveredBytes answers = bytes := by simp [deliveredBytes, answered]
          simp only at received
          split at received
          · cases received
            exact Or.inl ⟨_, rfl, rfl⟩
          · rename_i nonempty
            split at received
            · rename_i fits
              cases received
              rw [delivered]
              exact Or.inr ⟨nonempty, fits, rfl, rfl⟩
            · cases received

/-- All that flushing can do: find nothing to send, report an error and leave
the connection alone, or remove from the front what the kernel accepted. Its
assert never fails. -/
theorem flush_cases {conn : Connection} {answers : List SendAnswer}
    {outcome : Except Fault (Except SendError Nat × Connection)}
    (flushed : flushWriteNonblocking conn answers = some outcome) :
    (conn.writeBuf = [] ∧ outcome = .ok (.ok 0, conn)) ∨
    (conn.writeBuf ≠ [] ∧ ∃ error, outcome = .ok (.error error, conn)) ∨
    (∃ count, 0 < count ∧ count ≤ conn.writeBuf.length ∧
      acceptedBytes conn.writeBuf answers = conn.writeBuf.take count ∧
      outcome = .ok (.ok count, { conn with writeBuf := conn.writeBuf.drop count })) := by
  unfold flushWriteNonblocking at flushed
  split at flushed
  · rename_i empty
    cases flushed
    exact Or.inl ⟨empty, rfl⟩
  · rename_i nonempty
    split at flushed
    · cases flushed
      exact Or.inr (Or.inl ⟨nonempty, _, rfl⟩)
    · cases answered : retry SendAnswer.interrupted answers with
      | none => simp [answered] at flushed
      | some answer =>
        simp only [answered] at flushed
        cases answer with
        | failed errno =>
          simp only at flushed
          split at flushed <;> cases flushed <;> exact Or.inr (Or.inl ⟨nonempty, _, rfl⟩)
        | sent count =>
          simp only at flushed
          split at flushed
          · cases flushed
          · rename_i contract
            split at flushed
            · cases flushed
              exact Or.inr (Or.inl ⟨nonempty, _, rfl⟩)
            · rename_i nonzero
              have within : count ≤ conn.writeBuf.length := Nat.le_of_not_lt contract
              rw [Connection.consume_write_within conn count within] at flushed
              cases flushed
              refine Or.inr (Or.inr ⟨count, Nat.pos_of_ne_zero nonzero, within, ?_, rfl⟩)
              simp [acceptedBytes, answered]

/-- A kernel that receives without trouble: after its interruptions it delivers a
nonempty chunk within the scratch buffer, or reports that the call would block. -/
def receivesProperly (scratchSize : Nat) (answers : List RecvAnswer) : Bool :=
  match retry RecvAnswer.interrupted answers with
  | none => false
  | some (.received bytes) => !bytes.isEmpty && decide (bytes.length ≤ scratchSize)
  | some (.failed errno) => errno == .eagain || errno == .ewouldblock

/-- A kernel that sends without trouble: after its interruptions it accepts a
nonempty part of the pending bytes, or reports that the call would block. -/
def sendsProperly (pending : Nat) (answers : List SendAnswer) : Bool :=
  match retry SendAnswer.interrupted answers with
  | none => false
  | some (.sent count) => decide (0 < count ∧ count ≤ pending)
  | some (.failed errno) => errno == .eagain || errno == .ewouldblock

/-- Receiving from such a kernel returns, and the only error is that it would block. -/
theorem receive_properly {conn : Connection} {scratchSize : Nat} {answers : List RecvAnswer}
    (room : 0 < scratchSize) (valid : conn.socket.valid = true)
    (proper : receivesProperly scratchSize answers = true) :
    ∃ result after, receiveNonblocking conn scratchSize answers = some (result, after) ∧
      ∀ error, result = .error error → error.code = .wouldBlock := by
  have nonempty : scratchSize ≠ 0 := Nat.ne_of_gt room
  unfold receivesProperly at proper
  cases answered : retry RecvAnswer.interrupted answers with
  | none => simp [answered] at proper
  | some answer =>
    simp only [answered] at proper
    cases answer with
    | failed errno =>
      have blocks : errno = .eagain ∨ errno = .ewouldblock := by simpa using proper
      refine ⟨.error ⟨.wouldBlock, "recv would block", some errno⟩, conn, ?_, ?_⟩
      · simp [receiveNonblocking, nonempty, valid, answered, blocks]
      · intro error same
        cases same
        rfl
    | received bytes =>
      obtain ⟨present, fits⟩ : bytes ≠ [] ∧ bytes.length ≤ scratchSize := by simpa using proper
      refine ⟨.ok bytes.length, conn.appendRead bytes, ?_, nofun⟩
      simp [receiveNonblocking, nonempty, valid, answered, present, fits]

/-- Flushing to such a kernel returns, and the only error is that it would block.
Proof: the answers end with one that is no interruption, and it takes some bytes and
not more than there are. -/
theorem flush_properly {conn : Connection} {answers : List SendAnswer}
    (valid : conn.socket.valid = true)
    (proper : conn.writeBuf ≠ [] → sendsProperly conn.writeBuf.length answers = true) :
    ∃ outcome, flushWriteNonblocking conn answers = some outcome ∧
      ∀ error after, outcome = .ok (.error error, after) → error.code = .wouldBlock := by
  by_cases empty : conn.writeBuf = []
  · refine ⟨.ok (.ok 0, conn), ?_, nofun⟩
    simp [flushWriteNonblocking, empty]
  · have sends := proper empty
    unfold sendsProperly at sends
    cases answered : retry SendAnswer.interrupted answers with
    | none => simp [answered] at sends
    | some answer =>
      simp only [answered] at sends
      cases answer with
      | failed errno =>
        have blocks : errno = .eagain ∨ errno = .ewouldblock := by simpa using sends
        refine ⟨.ok (.error ⟨.wouldBlock, "send would block", some errno⟩, conn), ?_, ?_⟩
        · simp [flushWriteNonblocking, empty, valid, answered, blocks]
        · intro error after same
          cases same
          rfl
      | sent count =>
        obtain ⟨positive, within⟩ : 0 < count ∧ count ≤ conn.writeBuf.length := by
          simpa using sends
        have nonzero : count ≠ 0 := Nat.ne_of_gt positive
        refine ⟨.ok (.ok count, { conn with writeBuf := conn.writeBuf.drop count }), ?_, nofun⟩
        simp [flushWriteNonblocking, empty, valid, answered, nonzero, Nat.not_lt.mpr within,
          Connection.consume_write_within conn count within, bind, Except.bind, pure, Except.pure]

end TcpServer.SocketIo
