import TcpServer.SelectPoller
import TcpServer.SocketIo

/-!
# Accepting connections

The POSIX branches of `accept_one`, `Socket::set_nonblocking` and the member
functions of `Acceptor`. The kernel and, where the source takes a `Poller&`, the
poller are parameters. Which descriptors are open and who closes them is the
subject of the descriptor model; here a call has its result and its effect on
the poller.
-/

namespace TcpServer.Acceptor

open SocketIo

/-- What an operation on a socket object can fail with. The code says which operation,
the number what the system said. -/
inductive SocketErrorCode where
  | notInitialized
  | createFailed
  | closeFailed
  | nonBlockingFailed
deriving DecidableEq, Repr

/-- The error of an operation on a socket object. `nativeError` is `none` where the
source passes 0. -/
structure SocketError where
  code : SocketErrorCode
  message : String
  nativeError : Option Errno := none
deriving DecidableEq, Repr

/-- The error of `accept_one` and of registering what it returned. `nativeError` is
`none` where the source passes 0. -/
structure AcceptError where
  message : String
  nativeError : Option Errno := none
deriving DecidableEq, Repr

/-- The answer of `::accept`: a new descriptor, or a failure. The address of the peer
is not asked for. -/
inductive AcceptAnswer where
  | accepted (descriptor : Nat)
  | failed (errno : Errno)
deriving DecidableEq, Repr

/-- The answers of the two `::fcntl` calls: the `errno` of a call that fails. The
second is only made when the first succeeds. -/
structure FcntlAnswers where
  getFlags : Option Errno := none
  setFlags : Option Errno := none
deriving DecidableEq, Repr

/-- The native error of a poller as an `errno`. The select poller reports 0 where it
refuses a socket itself. -/
def pollErrno (error : PollError) : Option Errno :=
  if error.nativeError = 0 then none else some (.other error.nativeError.toNat)

/-- `set_nonblocking` on POSIX: read the flags and write them back with `O_NONBLOCK`.
Either call of `fcntl` can fail. -/
def setNonblocking (socket : Socket) (answers : FcntlAnswers) : Except SocketError Unit :=
  if !socket.valid then .error { code := .notInitialized, message := "socket is invalid" }
  else
    match answers.getFlags with
    | some errno => .error ⟨.nonBlockingFailed, "fcntl(F_GETFL) failed", some errno⟩
    | none =>
        match answers.setFlags with
        | some errno => .error ⟨.nonBlockingFailed, "fcntl(F_SETFL) failed", some errno⟩
        | none => .ok ()

/-- `accept_one`: one call of `accept`, whose failure is reported at once, also where
a signal has interrupted it. -/
def acceptOne (listener : Socket) (answer : AcceptAnswer) : Except AcceptError Socket :=
  if !listener.valid then .error { message := "listener socket is invalid" }
  else
    match answer with
    | .failed errno => .error ⟨"accept() failed", some errno⟩
    | .accepted descriptor => .ok ⟨descriptor⟩

/-- `Poller::upsert` of some poller. The source has it as an interface; the select
poller is one that implements it. -/
abbrev Upsert (Poller : Type) := Poller → Int → EventMask → Except PollError Unit × Poller

/-- The listener is registered for reading: it is ready when a connection waits to be
accepted. -/
def registerListener (listener : Socket) (poller : SelectPoller) :
    Except PollError Unit × SelectPoller :=
  poller.upsert listener.nativeHandle .read

/-- The listener is taken out of the poller; its socket stays open, and connections
may go on queueing at it. -/
def unregisterListener (listener : Socket) (poller : SelectPoller) :
    Except PollError Unit × SelectPoller :=
  poller.erase listener.nativeHandle

/-- `accept_and_register`, behind its call of `accept_one`. Where a later call fails,
the accepted socket is closed on the way out. -/
def registerAccepted {Poller : Type} (upsert : Upsert Poller) (poller : Poller) (socket : Socket)
    (flags : FcntlAnswers) : Except AcceptError Connection × Poller :=
  let conn : Connection := { socket }
  match setNonblocking conn.socket flags with
  | .error error =>
      (.error ⟨"failed to set non-blocking mode on accepted socket: " ++ error.message,
        error.nativeError⟩, poller)
  | .ok () =>
      match upsert poller conn.nativeHandle .read with
      | (.error error, poller) =>
          (.error ⟨"failed to register accepted socket: " ++ error.message, pollErrno error⟩,
            poller)
      | (.ok (), poller) => (.ok conn, poller)

/-- `accept_and_register`: accept one connection, make it non-blocking and register it
for reading. An error on the way drops the accepted socket and leaves the poller
alone. -/
def acceptAndRegister {Poller : Type} (upsert : Upsert Poller) (listener : Socket)
    (poller : Poller) (answer : AcceptAnswer) (flags : FcntlAnswers) :
    Except AcceptError Connection × Poller :=
  match acceptOne listener answer with
  | .error error => (.error error, poller)
  | .ok socket => registerAccepted upsert poller socket flags

/-- An accepted descriptor is a valid socket. -/
theorem accepted_valid {listener socket : Socket} {answer : AcceptAnswer}
    (accepted : acceptOne listener answer = .ok socket) :
    socket.valid = true ∧ ∃ descriptor : Nat, answer = .accepted descriptor ∧
      socket.nativeHandle = descriptor := by
  unfold acceptOne at accepted
  split at accepted
  · cases accepted
  · cases answer with
    | failed errno => cases accepted
    | accepted descriptor =>
      cases accepted
      refine ⟨?_, descriptor, rfl, rfl⟩
      simp [Socket.valid, kInvalidSocket]

/-- All that accepting with the select poller can do: fail and leave the poller
alone, or return an empty connection on the new descriptor, registered for reading. -/
theorem accept_and_register_cases {listener : Socket} {poller after : SelectPoller}
    {answer : AcceptAnswer} {flags : FcntlAnswers} {result : Except AcceptError Connection}
    (returned : acceptAndRegister SelectPoller.upsert listener poller answer flags =
      (result, after)) :
    (∃ error, result = .error error ∧ after = poller) ∨
      (∃ socket, acceptOne listener answer = .ok socket ∧ result = .ok { socket } ∧
        after.interest = poller.interest.insert socket.nativeHandle .read) := by
  unfold acceptAndRegister at returned
  cases accepted : acceptOne listener answer with
  | error error =>
    rw [accepted] at returned
    cases returned
    exact Or.inl ⟨error, rfl, rfl⟩
  | ok socket =>
    obtain ⟨valid, _⟩ := accepted_valid accepted
    have handle : socket.nativeHandle ≠ kInvalidSocket := by
      simpa [Socket.valid, Socket.nativeHandle] using valid
    simp only [accepted, registerAccepted, Connection.nativeHandle, SelectPoller.upsert, handle,
      ↓reduceIte] at returned
    cases blocking : setNonblocking socket flags with
    | error error =>
      simp only [blocking] at returned
      cases returned
      exact Or.inl ⟨_, rfl, rfl⟩
    | ok done =>
      simp only [blocking] at returned
      cases returned
      exact Or.inr ⟨socket, rfl, rfl, rfl⟩

end TcpServer.Acceptor
