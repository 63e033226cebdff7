import TcpServer.Acceptor
import TcpServer.SelectWait

/-!
# Interrupted system calls

A signal makes a blocking or slow system call fail with `EINTR`. Receiving and
sending repeat the call; accepting and waiting make it once and report what it
returned. Each operation is run against a kernel that interrupts any number of
attempts before it gives its real answer, and compared with the run in which the
real answer comes at once.
-/

namespace TcpServer.Interruptions

open Acceptor SocketIo SelectWait
open EventLoop (PollEvent)

/-- `EINTR` as the number that a poller reports. The other operations report the
`errno` itself. -/
def eintrNumber : Int := 4

/-- The answers of a kernel that interrupts the first attempts and then gives its real
answer. -/
def interrupted {Answer : Type} (interruption : Answer) (count : Nat) (real : Answer) :
    List Answer :=
  List.replicate count interruption ++ [real]

/-- `accept_one` makes its call once, so it sees the first answer only. -/
def acceptOneAnswered (listener : Socket) (answers : List AcceptAnswer) :
    Option (Except AcceptError Socket) :=
  answers.head?.map fun answer => acceptOne listener answer

/-- `accept_and_register` with the select poller, behind one call of `accept`. It sees
the first answer only. -/
def acceptAndRegisterAnswered (listener : Socket) (poller : SelectPoller) (flags : FcntlAnswers)
    (answers : List AcceptAnswer) : Option (Except AcceptError Connection × SelectPoller) :=
  answers.head?.map fun answer =>
    acceptAndRegister SelectPoller.upsert listener poller answer flags

/-- `wait` makes its call once, so it sees the first answer only. -/
def waitAnswered (poller : SelectPoller) (traversal : Traversal poller)
    (outEvents : List PollEvent) (timeoutMs : Int) (answers : List SelectAnswer) :
    Option (Except WaitFault Waited) :=
  answers.head?.map fun answer => wait poller traversal outEvents timeoutMs fun _ => answer

/-- A call of one of the five operations with the real answer of its system call. All
else that the call depends on is part of it. -/
inductive Operation where
  | receiveNonblocking (conn : Connection) (scratchSize : Nat) (real : RecvAnswer)
  | flushWriteNonblocking (conn : Connection) (real : SendAnswer)
  | acceptOne (listener : Socket) (real : AcceptAnswer)
  | acceptAndRegister (listener : Socket) (poller : SelectPoller) (flags : FcntlAnswers)
      (real : AcceptAnswer)
  | wait (poller : SelectPoller) (traversal : Traversal poller) (outEvents : List PollEvent)
      (timeoutMs : Int) (real : SelectAnswer)

/-- The real answer is not an interruption. Nor are those of `fcntl`, which does
not block for the commands that are used. -/
def Operation.answered : Operation → Prop
  | .receiveNonblocking _ _ real => real ≠ .failed .eintr
  | .flushWriteNonblocking _ real => real ≠ .failed .eintr
  | .acceptOne _ real => real ≠ .failed .eintr
  | .acceptAndRegister _ _ flags real => real ≠ .failed .eintr ∧
      flags.getFlags ≠ some .eintr ∧ flags.setFlags ≠ some .eintr
  | .wait _ _ _ _ real => ∀ errno, real = .failed errno → errno ≠ eintrNumber

/-- Interruptions change neither the result nor the state that the call leaves: it is
as if the real answer had come at once. -/
def Transparent (count : Nat) : Operation → Prop
  | .receiveNonblocking conn scratchSize real =>
      receiveNonblocking conn scratchSize (interrupted (.failed .eintr) count real) =
        receiveNonblocking conn scratchSize [real]
  | .flushWriteNonblocking conn real =>
      flushWriteNonblocking conn (interrupted (.failed .eintr) count real) =
        flushWriteNonblocking conn [real]
  | .acceptOne listener real =>
      acceptOneAnswered listener (interrupted (.failed .eintr) count real) =
        acceptOneAnswered listener [real]
  | .acceptAndRegister listener poller flags real =>
      acceptAndRegisterAnswered listener poller flags
          (interrupted (.failed .eintr) count real) =
        acceptAndRegisterAnswered listener poller flags [real]
  | .wait poller traversal outEvents timeoutMs real =>
      waitAnswered poller traversal outEvents timeoutMs
          (interrupted (.failed eintrNumber) count real) =
        waitAnswered poller traversal outEvents timeoutMs [real]

/-- The call does not report `EINTR` as its error, in the form in which this operation
reports errors. -/
def NeverReportsEintr (count : Nat) : Operation → Prop
  | .receiveNonblocking conn scratchSize real => ∀ error after,
      receiveNonblocking conn scratchSize (interrupted (.failed .eintr) count real) =
        some (.error error, after) → error.nativeError ≠ some .eintr
  | .flushWriteNonblocking conn real => ∀ error after,
      flushWriteNonblocking conn (interrupted (.failed .eintr) count real) =
        some (.ok (.error error, after)) → error.nativeError ≠ some .eintr
  | .acceptOne listener real => ∀ error,
      acceptOneAnswered listener (interrupted (.failed .eintr) count real) =
        some (.error error) → error.nativeError ≠ some .eintr
  | .acceptAndRegister listener poller flags real => ∀ error after,
      acceptAndRegisterAnswered listener poller flags
          (interrupted (.failed .eintr) count real) =
        some (.error error, after) → error.nativeError ≠ some .eintr
  | .wait poller traversal outEvents timeoutMs real => ∀ error after waited,
      waitAnswered poller traversal outEvents timeoutMs
          (interrupted (.failed eintrNumber) count real) =
        some (.ok ⟨.error error, after, waited⟩) → error.nativeError ≠ eintrNumber

/-- The operation repeats its system call, or returns without making it: accepting does so
for an invalid listener, and waiting for an empty span. -/
def ToleratesInterruption : Operation → Prop
  | .receiveNonblocking .. | .flushWriteNonblocking .. => True
  | .acceptOne listener _ | .acceptAndRegister listener .. => listener.valid = false
  | .wait _ _ outEvents _ _ => outEvents = []

/-- The registered sockets fit into an `fd_set`. Elsewhere the behaviour of `wait` is
undefined. -/
def Operation.inRange : Operation → Prop
  | .wait poller _ _ _ _ => ∀ fd ∈ poller.interest, InRange fd
  | _ => True

/-- Setting up the call of `::select` leaves the range of an `fd_set`, or that of
`int`. What the program does then is undefined. -/
def Operation.faults : Operation → Prop
  | .wait _ traversal _ timeoutMs _ =>
      ∃ fault, selectCall traversal.entries timeoutMs = .error fault
  | _ => False

/-- In range nothing faults. -/
theorem in_range_defined {operation : Operation} (inRange : operation.inRange) :
    ¬ operation.faults := by
  cases operation with
  | wait poller traversal outEvents timeoutMs real =>
    rintro ⟨fault, faulted⟩
    obtain ⟨call, called, _⟩ := traversal_requests traversal inRange timeoutMs
    rw [called] at faulted
    cases faulted
  | _ => exact id

section Retry

variable {Answer : Type} {isInterruption : Answer → Bool} {interruption real : Answer}

/-- The retry loop ends with the first answer that is no interruption. -/
theorem retry_interrupted (interrupts : isInterruption interruption = true)
    (final : isInterruption real = false) (count : Nat) :
    retry isInterruption (interrupted interruption count real) = some real := by
  induction count with
  | zero => simp [interrupted, retry, final]
  | succ others inductionHypothesis =>
    have more : interrupted interruption (others + 1) real =
        interruption :: interrupted interruption others real := by
      simp [interrupted, List.replicate_succ]
    rw [more, retry, if_pos interrupts]
    exact inductionHypothesis

/-- With interruptions the first answer is one. -/
theorem interrupted_head (count : Nat) :
    (interrupted interruption (count + 1) real).head? = some interruption := by
  simp [interrupted, List.replicate_succ]

end Retry

/-- Receiving depends only on the answer that ends the retry loop. -/
theorem receive_retry (conn : Connection) (scratchSize : Nat) (answers others : List RecvAnswer)
    (same : retry RecvAnswer.interrupted answers = retry RecvAnswer.interrupted others) :
    receiveNonblocking conn scratchSize answers = receiveNonblocking conn scratchSize others := by
  simp only [receiveNonblocking, same]

/-- Flushing depends only on the answer that ends the retry loop. -/
theorem flush_retry (conn : Connection) (answers others : List SendAnswer)
    (same : retry SendAnswer.interrupted answers = retry SendAnswer.interrupted others) :
    flushWriteNonblocking conn answers = flushWriteNonblocking conn others := by
  simp only [flushWriteNonblocking, same]

/-- Receiving reports the `errno` of its last answer, or none. The answers before it
were interruptions, and of these nothing is kept. -/
theorem receive_reports {conn after : Connection} {scratchSize : Nat} {answers : List RecvAnswer}
    {real : RecvAnswer} {error : RecvError}
    (ends : retry RecvAnswer.interrupted answers = some real)
    (returned : receiveNonblocking conn scratchSize answers = some (.error error, after)) :
    error.nativeError = none ∨ ∃ errno, real = .failed errno ∧ error.nativeError = some errno := by
  unfold receiveNonblocking at returned
  split at returned
  · cases returned
    exact Or.inl rfl
  · split at returned
    · cases returned
      exact Or.inl rfl
    · rw [ends] at returned
      cases real with
      | failed errno =>
        simp only at returned
        split at returned
        · cases returned
          exact Or.inr ⟨errno, rfl, rfl⟩
        · cases returned
          exact Or.inr ⟨errno, rfl, rfl⟩
      | received bytes =>
        simp only at returned
        split at returned
        · cases returned
          exact Or.inl rfl
        · split at returned
          · cases returned
          · cases returned

/-- Flushing reports the `errno` of its last answer, or none; what the kernel has
taken is then removed from the buffer without an error. -/
theorem flush_reports {conn after : Connection} {answers : List SendAnswer} {real : SendAnswer}
    {error : SendError} (ends : retry SendAnswer.interrupted answers = some real)
    (returned : flushWriteNonblocking conn answers = some (.ok (.error error, after))) :
    error.nativeError = none ∨ ∃ errno, real = .failed errno ∧ error.nativeError = some errno := by
  unfold flushWriteNonblocking at returned
  split at returned
  · cases returned
  · split at returned
    · cases returned
      exact Or.inl rfl
    · rw [ends] at returned
      cases real with
      | failed errno =>
        simp only at returned
        split at returned
        · cases returned
          exact Or.inr ⟨errno, rfl, rfl⟩
        · cases returned
          exact Or.inr ⟨errno, rfl, rfl⟩
      | sent count =>
        simp only at returned
        split at returned
        · cases returned
        · rename_i contract
          split at returned
          · cases returned
            exact Or.inl rfl
          · rw [Connection.consume_write_within conn count (Nat.not_lt.mp contract)] at returned
            cases returned

/-- Accepting reports the `errno` of its answer, or none. -/
theorem accept_reports {listener : Socket} {real : AcceptAnswer} {error : AcceptError}
    (returned : acceptOne listener real = .error error) :
    error.nativeError = none ∨ ∃ errno, real = .failed errno ∧ error.nativeError = some errno := by
  unfold acceptOne at returned
  split at returned
  · cases returned
    exact Or.inl rfl
  · cases real with
    | failed errno =>
      cases returned
      exact Or.inr ⟨errno, rfl, rfl⟩
    | accepted descriptor => cases returned

/-- Behind an accepted socket, the errors are those of `fcntl`. The select poller
takes every valid socket. -/
theorem register_accepted_reports {poller after : SelectPoller} {socket : Socket}
    {flags : FcntlAnswers} {error : AcceptError}
    (returned : registerAccepted SelectPoller.upsert poller socket flags = (.error error, after)) :
    error.nativeError = none ∨ error.nativeError = flags.getFlags ∨
      error.nativeError = flags.setFlags := by
  obtain ⟨getFlags, setFlags⟩ := flags
  by_cases valid : socket.valid = true
  · have handle : socket.nativeHandle ≠ kInvalidSocket := by
      simpa [Socket.valid, Socket.nativeHandle] using valid
    cases getFlags with
    | some errno =>
      simp only [registerAccepted, setNonblocking, valid] at returned
      cases returned
      exact Or.inr (Or.inl rfl)
    | none =>
      cases setFlags with
      | some errno =>
        simp only [registerAccepted, setNonblocking, valid] at returned
        cases returned
        exact Or.inr (Or.inr rfl)
      | none =>
        simp [registerAccepted, setNonblocking, valid, Connection.nativeHandle,
          SelectPoller.upsert, handle] at returned
  · simp only [registerAccepted, setNonblocking, valid] at returned
    cases returned
    exact Or.inl rfl

section Waiting

variable {poller : SelectPoller} {traversal : Traversal poller} {outEvents : List PollEvent}
  {timeoutMs : Int}

/-- Waiting reports the `errno` of its answer, or none. -/
theorem wait_reports {real : SelectAnswer} {error : PollError} {after : List PollEvent}
    {left : SelectPoller}
    (returned : wait poller traversal outEvents timeoutMs (fun _ => real) =
      .ok ⟨.error error, after, left⟩) :
    error.nativeError = 0 ∨ ∃ errno, real = .failed errno ∧ error.nativeError = errno := by
  unfold wait at returned
  split at returned
  · cases returned
    exact Or.inl rfl
  · cases called : selectCall traversal.entries timeoutMs with
    | error fault => simp [called, bind, Except.bind] at returned
    | ok call =>
      simp only [called, bind, Except.bind] at returned
      cases real with
      | failed errno =>
        cases returned
        exact Or.inr ⟨errno, rfl, rfl⟩
      | returned count sets =>
        cases count with
        | zero => cases returned
        | succ others =>
          cases filled : writeEvents sets traversal.entries 0 outEvents with
          | error fault => simp [filled] at returned
          | ok outcome => simp [filled, pure, Except.pure] at returned

/-- A failed `::select` is reported at once. -/
theorem wait_failed (room : outEvents ≠ []) {call : SelectCall}
    (called : selectCall traversal.entries timeoutMs = .ok call) (errno : Int) :
    wait poller traversal outEvents timeoutMs (fun _ => .failed errno) =
      .ok ⟨.error ⟨"select() failed", errno⟩, outEvents, poller⟩ := by
  simp only [wait, room, called, bind, Except.bind, pure, Except.pure, ↓reduceIte]

/-- A call of `wait` that does not reach `::select` ignores its answer. -/
theorem wait_unasked
    (unasked : outEvents = [] ∨ ∃ fault, selectCall traversal.entries timeoutMs = .error fault)
    (select other : SelectCall → SelectAnswer) :
    wait poller traversal outEvents timeoutMs select =
      wait poller traversal outEvents timeoutMs other := by
  rcases unasked with empty | ⟨fault, faulted⟩
  · simp only [wait, empty, ↓reduceIte]
  · simp only [wait, faulted, bind, Except.bind]

end Waiting

/-- A reported number that is none or that of a final answer is not `EINTR`. -/
theorem reported_final {Answer : Type} {real : Answer} {failed : Errno → Answer}
    {reported : Option Errno} (final : real ≠ failed .eintr)
    (cases : reported = none ∨ ∃ errno, real = failed errno ∧ reported = some errno) :
    reported ≠ some .eintr := by
  intro impossible
  rcases cases with silent | ⟨errno, same, named⟩
  · rw [silent] at impossible
    cases impossible
  · rw [named] at impossible
    cases impossible
    exact final same

/-- Receiving is transparent. -/
theorem receive_transparent (count : Nat) (conn : Connection) (scratchSize : Nat)
    (real : RecvAnswer) (final : real ≠ .failed .eintr) :
    Transparent count (.receiveNonblocking conn scratchSize real) ∧
      NeverReportsEintr count (.receiveNonblocking conn scratchSize real) := by
  have last : RecvAnswer.interrupted real = false := by
    simpa [RecvAnswer.interrupted] using final
  have ends := retry_interrupted (Eq.refl (RecvAnswer.interrupted (.failed .eintr))) last
  constructor
  · exact receive_retry conn scratchSize _ _ ((ends count).trans (ends 0).symm)
  · intro error after returned
    exact reported_final final (receive_reports (ends count) returned)

/-- Flushing is transparent. -/
theorem flush_transparent (count : Nat) (conn : Connection) (real : SendAnswer)
    (final : real ≠ .failed .eintr) :
    Transparent count (.flushWriteNonblocking conn real) ∧
      NeverReportsEintr count (.flushWriteNonblocking conn real) := by
  have last : SendAnswer.interrupted real = false := by
    simpa [SendAnswer.interrupted] using final
  have ends := retry_interrupted (Eq.refl (SendAnswer.interrupted (.failed .eintr))) last
  constructor
  · exact flush_retry conn _ _ ((ends count).trans (ends 0).symm)
  · intro error after returned
    exact reported_final final (flush_reports (ends count) returned)

/-- Accepting reports the first interruption, if it calls `accept` at all. -/
theorem accept_transparent_iff (count : Nat) (listener : Socket) (real : AcceptAnswer)
    (final : real ≠ .failed .eintr) :
    Transparent count (.acceptOne listener real) ∧
        NeverReportsEintr count (.acceptOne listener real) ↔
      count = 0 ∨ listener.valid = false := by
  cases count with
  | zero =>
    constructor
    · exact fun _ => Or.inl rfl
    · intro _
      refine ⟨rfl, ?_⟩
      intro error returned
      exact reported_final final (accept_reports (Option.some.inj returned))
  | succ others =>
    simp only [Transparent, NeverReportsEintr, acceptOneAnswered, interrupted_head, Option.map_some,
      List.head?_cons, Nat.add_one_ne_zero, false_or]
    cases valid : listener.valid with
    | false => simp [acceptOne, valid]
    | true =>
      constructor
      · intro ⟨_, silent⟩
        have reported := silent ⟨"accept() failed", some .eintr⟩ (by simp [acceptOne, valid])
        exact absurd rfl reported
      · intro impossible
        cases impossible

/-- Accepting and registering reports the first interruption as well, since it goes
through `accept_one`. Without one its errors are those of `accept` and of `fcntl`. -/
theorem accept_and_register_transparent_iff (count : Nat) (listener : Socket)
    (poller : SelectPoller) (flags : FcntlAnswers) (real : AcceptAnswer)
    (final : real ≠ .failed .eintr) (getFlags : flags.getFlags ≠ some .eintr)
    (setFlags : flags.setFlags ≠ some .eintr) :
    Transparent count (.acceptAndRegister listener poller flags real) ∧
        NeverReportsEintr count (.acceptAndRegister listener poller flags real) ↔
      count = 0 ∨ listener.valid = false := by
  cases count with
  | zero =>
    constructor
    · exact fun _ => Or.inl rfl
    · intro _
      refine ⟨rfl, ?_⟩
      intro error after returned impossible
      have outcome : acceptAndRegister SelectPoller.upsert listener poller real flags =
          (.error error, after) := Option.some.inj returned
      unfold acceptAndRegister at outcome
      cases accepted : acceptOne listener real with
      | error refused =>
        rw [accepted] at outcome
        cases outcome
        exact reported_final final (accept_reports accepted) impossible
      | ok socket =>
        rw [accepted] at outcome
        rcases register_accepted_reports outcome with silent | reported | reported
        · rw [silent] at impossible
          cases impossible
        · exact getFlags (reported ▸ impossible)
        · exact setFlags (reported ▸ impossible)
  | succ others =>
    simp only [Transparent, NeverReportsEintr, acceptAndRegisterAnswered, interrupted_head,
      Option.map_some, List.head?_cons, Nat.add_one_ne_zero, false_or]
    cases valid : listener.valid with
    | false => simp [acceptAndRegister, acceptOne, valid]
    | true =>
      constructor
      · intro ⟨_, silent⟩
        have reported := silent ⟨"accept() failed", some .eintr⟩ poller
          (by simp [acceptAndRegister, acceptOne, valid])
        exact absurd rfl reported
      · intro impossible
        cases impossible

/-- Waiting reports the first interruption, if it calls `select` at all. It does not
when the span is empty, or when setting up the sets faults. -/
theorem wait_transparent_iff (count : Nat) (poller : SelectPoller)
    (traversal : Traversal poller) (outEvents : List PollEvent) (timeoutMs : Int)
    (real : SelectAnswer) (final : ∀ errno, real = .failed errno → errno ≠ eintrNumber) :
    Transparent count (.wait poller traversal outEvents timeoutMs real) ∧
        NeverReportsEintr count (.wait poller traversal outEvents timeoutMs real) ↔
      count = 0 ∨ outEvents = [] ∨
        ∃ fault, selectCall traversal.entries timeoutMs = .error fault := by
  have silent (error : PollError) (after : List PollEvent) (left : SelectPoller)
      (returned : wait poller traversal outEvents timeoutMs (fun _ => real) =
        .ok ⟨.error error, after, left⟩) : error.nativeError ≠ eintrNumber := by
    rcases wait_reports returned with zero | ⟨errno, same, named⟩
    · rw [zero]
      decide
    · rw [named]
      exact final errno same
  cases count with
  | zero =>
    constructor
    · exact fun _ => Or.inl rfl
    · intro _
      refine ⟨rfl, ?_⟩
      intro error after left returned
      exact silent error after left (Option.some.inj returned)
  | succ others =>
    simp only [Transparent, NeverReportsEintr, waitAnswered, interrupted_head, Option.map_some,
      List.head?_cons, Nat.add_one_ne_zero, false_or, Option.some.injEq]
    constructor
    · intro ⟨_, reports⟩
      by_cases empty : outEvents = []
      · exact Or.inl empty
      · cases called : selectCall traversal.entries timeoutMs with
        | error fault => exact Or.inr ⟨fault, rfl⟩
        | ok call =>
          have reported := reports ⟨"select() failed", eintrNumber⟩ outEvents poller
            (wait_failed empty called eintrNumber)
          exact absurd rfl reported
    · intro unasked
      have same : wait poller traversal outEvents timeoutMs (fun _ => .failed eintrNumber) =
          wait poller traversal outEvents timeoutMs (fun _ => real) :=
        wait_unasked unasked _ _
      rw [same]
      exact ⟨rfl, silent⟩

/-- Signal interruption is transparent exactly for the calls that are not interrupted,
that repeat their system call, or that return without making it. A call of `wait` on
descriptors outside of an `fd_set` is the only other case: it may fault before it asks
`::select`, with or without a signal. -/
theorem interruptions_transparent_exact (count : Nat) (operation : Operation)
    (final : operation.answered) :
    (operation.inRange → (Transparent count operation ∧ NeverReportsEintr count operation ↔
      count = 0 ∨ ToleratesInterruption operation)) ∧
    (Transparent count operation ∧ NeverReportsEintr count operation ↔
      count = 0 ∨ ToleratesInterruption operation ∨ operation.faults) := by
  have general : Transparent count operation ∧ NeverReportsEintr count operation ↔
      count = 0 ∨ ToleratesInterruption operation ∨ operation.faults := by
    cases operation with
    | receiveNonblocking conn scratchSize real =>
      have transparent := receive_transparent count conn scratchSize real final
      exact ⟨fun _ => Or.inr (Or.inl trivial), fun _ => transparent⟩
    | flushWriteNonblocking conn real =>
      have transparent := flush_transparent count conn real final
      exact ⟨fun _ => Or.inr (Or.inl trivial), fun _ => transparent⟩
    | acceptOne listener real =>
      rw [accept_transparent_iff count listener real final]
      simp only [ToleratesInterruption, Operation.faults, or_false]
    | acceptAndRegister listener poller flags real =>
      obtain ⟨accepting, getFlags, setFlags⟩ := final
      rw [accept_and_register_transparent_iff count listener poller flags real accepting getFlags
        setFlags]
      simp only [ToleratesInterruption, Operation.faults, or_false]
    | wait poller traversal outEvents timeoutMs real =>
      exact wait_transparent_iff count poller traversal outEvents timeoutMs real final
  refine ⟨fun inRange => ?_, general⟩
  rw [general, or_iff_left (in_range_defined inRange)]

/-- Two interruptions of a receive call: the byte arrives all the same. -/
theorem interruptions_transparent_receive :
    receiveNonblocking { socket := ⟨7⟩ } 16 [.failed .eintr, .failed .eintr, .received [42]] =
        receiveNonblocking { socket := ⟨7⟩ } 16 [.received [42]] ∧
      NeverReportsEintr 2 (.receiveNonblocking { socket := ⟨7⟩ } 16 (.received [42])) := by
  have final : Operation.answered (.receiveNonblocking { socket := ⟨7⟩ } 16 (.received [42])) := by
    intro impossible
    cases impossible
  exact ((interruptions_transparent_exact 2 _ final).1 trivial).mpr (Or.inr trivial)

/-- One signal in front of a waiting connection: `accept_one` fails. -/
theorem interruptions_not_always_transparent :
    ¬ ∀ count operation, Operation.answered operation →
      Transparent count operation ∧ NeverReportsEintr count operation := by
  intro always
  have final : Operation.answered (.acceptOne ⟨3⟩ (.accepted 5)) := by
    intro impossible
    cases impossible
  obtain ⟨_, silent⟩ := always 1 (.acceptOne ⟨3⟩ (.accepted 5)) final
  exact silent ⟨"accept() failed", some .eintr⟩ rfl rfl

end TcpServer.Interruptions
