import Mathlib.Algebra.Group.Nat.Defs
import Mathlib.Algebra.Group.Int.Defs
import TcpServer.SocketIo

/-!
# The lengths handed to the kernel

Both platform branches of `receive_nonblocking` and `flush_write_nonblocking`
pass the size of a buffer to a system call. POSIX takes it as a `size_t`; Winsock
takes an `int`, and the source casts. The cast keeps the low 32 bits, so beyond
`INT_MAX` the argument can be negative, zero or too small.

The Windows branches are modelled with the answer of Winsock as a function of
the call it receives, so that what the kernel makes of a bad length can be said.
-/

namespace TcpServer.KernelLengths

open SocketIo

/-- The two branches of the source. They differ in the type of the length that the
system call takes. -/
inductive Platform where
  | posix
  | windows
deriving DecidableEq, Repr

/-- `static_cast<int>` of a `std::size_t`, in 32-bit two's complement: the low 32
bits, read as a signed number. -/
def castInt (size : Nat) : Int := (BitVec.ofNat 32 size).toInt

/-- A buffer size as the length argument of a system call. Only one of the branches
narrows it. -/
def lengthArgument : Platform → Nat → Int
  | .posix, size => size
  | .windows, size => castInt size

/-- The arguments of `::recv`, without the address of the scratch buffer. The flags
are zero in both branches. -/
structure RecvCall where
  socket : Int
  length : Int
deriving DecidableEq, Repr

/-- The arguments of `::send`, together with the bytes that stand at the address it is
given. -/
structure SendCall where
  socket : Int
  data : List Byte
  length : Int
deriving DecidableEq, Repr

/-- The call of `::recv` in `receive_nonblocking`. Its length is the size of the
scratch buffer. -/
def recvCall (platform : Platform) (conn : Connection) (scratchSize : Nat) : RecvCall :=
  ⟨conn.nativeHandle, lengthArgument platform scratchSize⟩

/-- The call of `::send` in `flush_write_nonblocking`. Its length is the size of the
whole write buffer. -/
def sendCall (platform : Platform) (conn : Connection) : SendCall :=
  ⟨conn.nativeHandle, conn.writeBuf, lengthArgument platform conn.writeBuf.length⟩

/-- `WSAEWOULDBLOCK`: a socket that does not block has nothing to give or no room, for
which POSIX has `EAGAIN`. -/
def wsaeWouldBlock : Nat := 10035

/-- `WSAEINPROGRESS`: a call on the socket is under way. The source treats it like
`WSAEWOULDBLOCK`. -/
def wsaeInProgress : Nat := 10036

/-- The answer of Winsock's `::recv`: bytes, or `SOCKET_ERROR` with the value of
`WSAGetLastError()`. -/
inductive WinsockRecv where
  | received (bytes : List Byte)
  | failed (error : Nat)
deriving DecidableEq, Repr

/-- The answer of Winsock's `::send`: what it took, or an error code of its own. -/
inductive WinsockSend where
  | sent (count : Int)
  | failed (error : Nat)
deriving DecidableEq, Repr

/-- The Windows branch of `receive_nonblocking`. As on POSIX it is `none` when the
kernel reports more bytes than there is room for. -/
def receiveNonblockingWindows (conn : Connection) (scratchSize : Nat)
    (recv : RecvCall → WinsockRecv) : Option (Except RecvError Nat × Connection) :=
  if scratchSize = 0 then
    some (.error { code := .invalidArgument, message := "scratch buffer is empty" }, conn)
  else if !conn.socket.valid then
    some (.error { code := .ioError, message := "connection socket is invalid" }, conn)
  else
    match recv (recvCall .windows conn scratchSize) with
    | .failed error =>
        if error = wsaeWouldBlock ∨ error = wsaeInProgress then
          some (.error ⟨.wouldBlock, "recv would block", some (.other error)⟩, conn)
        else some (.error ⟨.ioError, "recv failed", some (.other error)⟩, conn)
    | .received bytes =>
        if bytes = [] then
          some (.error { code := .closed, message := "peer closed connection" }, conn)
        else if bytes.length ≤ scratchSize then some (.ok bytes.length, conn.appendRead bytes)
        else none

/-- The Windows branch of `flush_write_nonblocking`. It makes its call once, whatever
the answer. -/
def flushWriteNonblockingWindows (conn : Connection) (send : SendCall → WinsockSend) :
    Option (Except Fault (Except SendError Nat × Connection)) :=
  if conn.writeBuf = [] then some (.ok (.ok 0, conn))
  else if !conn.socket.valid then
    some (.ok (.error { code := .ioError, message := "connection socket is invalid" }, conn))
  else
    match send (sendCall .windows conn) with
    | .failed error =>
        if error = wsaeWouldBlock ∨ error = wsaeInProgress then
          some (.ok (.error ⟨.wouldBlock, "send would block", some (.other error)⟩, conn))
        else some (.ok (.error ⟨.ioError, "send failed", some (.other error)⟩, conn))
    | .sent count =>
        if count ≤ 0 then
          some (.ok (.error { code := .ioError, message := "send returned non-positive" }, conn))
        else if count.toNat > conn.writeBuf.length then none
        else some (do
          let conn ← conn.consumeWrite count.toNat
          return (.ok count.toNat, conn))

/-- A length argument that lets the kernel make progress inside the buffer: it is
positive, and the buffer is as long. -/
def LengthValid (size : Nat) (length : Int) : Prop := 0 < length ∧ length ≤ size

/-- The low 32 bits of the size are a positive `int`. Small sizes are such, and so are
some beyond 2^32, whose length is then too small. -/
def FitsInt (size : Nat) : Prop := 1 ≤ size % 2 ^ 32 ∧ size % 2 ^ 32 ≤ 2 ^ 31 - 1

/-- The cast keeps the low 32 bits and reads the upper half as negative. -/
theorem cast_int_value (size : Nat) :
    castInt size =
      if size % 2 ^ 32 < 2 ^ 31 then ((size % 2 ^ 32 : Nat) : Int)
      else ((size % 2 ^ 32 : Nat) : Int) - 4294967296 := by
  rw [castInt, BitVec.toInt_eq_toNat_cond, BitVec.toNat_ofNat]
  split
  · split
    · rfl
    · omega
  · split
    · omega
    · rfl

/-- The length argument is valid on POSIX for every nonempty buffer, and on
Windows when the low 32 bits of the size are a positive `int`. -/
theorem length_valid_iff (platform : Platform) (size : Nat) (nonempty : 0 < size) :
    LengthValid size (lengthArgument platform size) ↔ platform = .posix ∨ FitsInt size := by
  cases platform with
  | posix =>
    constructor
    · exact fun _ => Or.inl rfl
    · intro _
      exact ⟨Int.natCast_pos.mpr nonempty, Int.le_refl _⟩
  | windows =>
    have truncates : size % 2 ^ 32 ≤ size := Nat.mod_le size _
    simp only [LengthValid, lengthArgument, cast_int_value, FitsInt, reduceCtorEq, false_or]
    split
    · omega
    · omega

/-- Any other size is passed to Winsock as zero or as a negative number. -/
theorem unfit_nonpositive {size : Nat} (unfit : ¬ FitsInt size) :
    lengthArgument .windows size ≤ 0 := by
  unfold FitsInt at unfit
  rw [lengthArgument, cast_int_value]
  split
  · omega
  · omega

/-- With a positive length inside the buffer such a Winsock takes some bytes or
reports that it would block; without one it takes nothing or fails. -/
structure HonoursLength (send : SendCall → WinsockSend) : Prop where
  progress : ∀ call, 0 < call.length → call.length ≤ call.data.length →
    (∃ count, send call = .sent count ∧ 0 < count ∧ count ≤ call.length) ∨
      send call = .failed wsaeWouldBlock
  refusal : ∀ call, call.length ≤ 0 → send call = .sent 0 ∨
    ∃ error, send call = .failed error ∧ error ≠ wsaeWouldBlock ∧ error ≠ wsaeInProgress

/-- Flushing to a kernel that honours its length argument never reports `IoError`, on
the given branch. -/
def NeverFailsBySize (conn : Connection) : Platform → Prop
  | .posix => ∀ answers, sendsProperly conn.writeBuf.length answers = true →
      ∀ error after, flushWriteNonblocking conn answers = some (.ok (.error error, after)) →
        error.code ≠ .ioError
  | .windows => ∀ send, HonoursLength send → ∀ error after,
      flushWriteNonblockingWindows conn send = some (.ok (.error error, after)) →
        error.code ≠ .ioError

/-- Winsock on a connection that stays open, with data now and then: a positive length
delivers some of it or would block, and any other delivers nothing or is refused. -/
structure HonoursRoom (recv : RecvCall → WinsockRecv) : Prop where
  progress : ∀ call, 0 < call.length →
    (∃ bytes, recv call = .received bytes ∧ bytes ≠ [] ∧ (bytes.length : Int) ≤ call.length) ∨
      recv call = .failed wsaeWouldBlock
  refusal : ∀ call, call.length ≤ 0 → recv call = .received [] ∨
    ∃ error, recv call = .failed error ∧ error ≠ wsaeWouldBlock ∧ error ≠ wsaeInProgress

/-- The Windows branch of receiving from such a connection delivers data or would block;
in particular it does not take the connection for closed. -/
def OnlyBlocksBySize (conn : Connection) (scratchSize : Nat) : Prop :=
  ∀ recv, HonoursRoom recv → ∃ result after,
    receiveNonblockingWindows conn scratchSize recv = some (result, after) ∧
      ∀ error, result = .error error → error.code = .wouldBlock

section Flushing

variable {conn : Connection}

/-- On POSIX the kernel sees the whole buffer and makes progress. -/
theorem posix_never_fails (valid : conn.socket.valid = true) :
    NeverFailsBySize conn .posix := by
  intro answers proper error after flushed
  obtain ⟨outcome, returned, blocks⟩ := flush_properly valid (fun _ => proper)
  have same : outcome = .ok (.error error, after) := Option.some.inj (returned.symm.trans flushed)
  rw [blocks error after same]
  decide

/-- A valid length lets Winsock make progress. -/
theorem windows_never_fails (pending : conn.writeBuf ≠ []) (valid : conn.socket.valid = true)
    (fits : FitsInt conn.writeBuf.length) : NeverFailsBySize conn .windows := by
  intro send honours error after flushed
  have nonempty : 0 < conn.writeBuf.length := List.length_pos_iff.mpr pending
  obtain ⟨positive, within⟩ := (length_valid_iff .windows _ nonempty).mpr (Or.inr fits)
  simp only [flushWriteNonblockingWindows, pending, valid, Bool.not_true, Bool.false_eq_true,
    ↓reduceIte] at flushed
  rcases honours.progress (sendCall .windows conn) positive within
    with ⟨count, sent, some, most⟩ | blocked
  · have taken : count.toNat ≤ conn.writeBuf.length := by
      have most' : count ≤ lengthArgument .windows conn.writeBuf.length := most
      omega
    simp only [sent, Int.not_le.mpr some, Nat.not_lt.mpr taken,
      Connection.consume_write_within conn count.toNat taken, ↓reduceIte] at flushed
    cases flushed
  · simp only [blocked, wsaeWouldBlock, true_or, ↓reduceIte] at flushed
    cases flushed
    decide

/-- The Winsock that takes whatever a positive length allows and nothing else. It is
the most willing of those that honour their argument. -/
def greedySend (call : SendCall) : WinsockSend := .sent (max 0 call.length)

/-- It honours its length argument. -/
theorem greedy_send_honours : HonoursLength greedySend := by
  constructor
  · intro call positive _
    refine Or.inl ⟨call.length, ?_, positive, Int.le_refl _⟩
    rw [greedySend, Int.max_eq_right (Int.le_of_lt positive)]
  · intro call nonpositive
    refine Or.inl ?_
    rw [greedySend, Int.max_eq_left nonpositive]

/-- Without a positive length the data stays where it is and `IoError` is reported. -/
theorem windows_fails (pending : conn.writeBuf ≠ []) (valid : conn.socket.valid = true)
    (unfit : ¬ FitsInt conn.writeBuf.length) : ¬ NeverFailsBySize conn .windows := by
  intro never
  have nonpositive := unfit_nonpositive unfit
  have sent : greedySend (sendCall .windows conn) = .sent 0 := by
    rw [greedySend, sendCall, Int.max_eq_left nonpositive]
  have failed : flushWriteNonblockingWindows conn greedySend = some (.ok
      (.error { code := .ioError, message := "send returned non-positive" }, conn)) := by
    simp [flushWriteNonblockingWindows, pending, valid, sent]
  exact never greedySend greedy_send_honours _ _ failed rfl

end Flushing

section Receiving

variable {conn : Connection} {scratchSize : Nat}

/-- A valid length lets Winsock deliver what fits. -/
theorem windows_receives (valid : conn.socket.valid = true) (room : 0 < scratchSize)
    (fits : FitsInt scratchSize) : OnlyBlocksBySize conn scratchSize := by
  intro recv honours
  obtain ⟨positive, within⟩ := (length_valid_iff .windows _ room).mpr (Or.inr fits)
  have some_room : scratchSize ≠ 0 := Nat.pos_iff_ne_zero.mp room
  simp only [receiveNonblockingWindows, some_room, valid, Bool.not_true, Bool.false_eq_true,
    ↓reduceIte]
  rcases honours.progress (recvCall .windows conn scratchSize) positive
    with ⟨bytes, received, some_bytes, short⟩ | blocked
  · have most : bytes.length ≤ scratchSize := by
      have short' : (bytes.length : Int) ≤ lengthArgument .windows scratchSize := short
      omega
    simp only [received, some_bytes, most, ↓reduceIte]
    exact ⟨_, _, rfl, fun error failed => nomatch failed⟩
  · simp only [blocked, true_or, ↓reduceIte]
    refine ⟨_, _, rfl, fun error failed => ?_⟩
    cases failed
    rfl

/-- The Winsock on whose connection nothing has arrived. It says so, as long as there
is room for something. -/
def idleRecv (call : RecvCall) : WinsockRecv :=
  if 0 < call.length then .failed wsaeWouldBlock else .received []

/-- It honours its length argument. -/
theorem idle_recv_honours : HonoursRoom idleRecv := by
  constructor
  · intro call positive
    exact Or.inr (if_pos positive)
  · intro call nonpositive
    exact Or.inl (if_neg (Int.not_lt.mpr nonpositive))

/-- Without a positive length nothing is delivered, and the connection is taken for closed. -/
theorem windows_misreads (valid : conn.socket.valid = true) (room : 0 < scratchSize)
    (unfit : ¬ FitsInt scratchSize) : ¬ OnlyBlocksBySize conn scratchSize := by
  intro only
  have some_room : scratchSize ≠ 0 := Nat.pos_iff_ne_zero.mp room
  have received : idleRecv (recvCall .windows conn scratchSize) = .received [] :=
    if_neg (Int.not_lt.mpr (unfit_nonpositive unfit))
  obtain ⟨result, after, returned, blocks⟩ := only idleRecv idle_recv_honours
  simp only [receiveNonblockingWindows, some_room, valid, received, Bool.not_true,
    Bool.false_eq_true, ↓reduceIte, Option.some.injEq, Prod.mk.injEq] at returned
  cases blocks _ returned.1.symm

end Receiving

/-- The lengths handed to the kernel are valid, flushing never fails because of the size
of its buffer, and receiving on Windows delivers data or would block, exactly on POSIX
and on Windows for the sizes whose low 32 bits are a positive `int`. -/
theorem kernel_lengths_exact (platform : Platform) (conn : Connection)
    (pending : conn.writeBuf ≠ []) (valid : conn.socket.valid = true) (scratchSize : Nat)
    (room : 0 < scratchSize) :
    (LengthValid conn.writeBuf.length (sendCall platform conn).length ↔
      platform = .posix ∨ FitsInt conn.writeBuf.length) ∧
    (NeverFailsBySize conn platform ↔ platform = .posix ∨ FitsInt conn.writeBuf.length) ∧
    (LengthValid scratchSize (recvCall platform conn scratchSize).length ↔
      platform = .posix ∨ FitsInt scratchSize) ∧
    (OnlyBlocksBySize conn scratchSize ↔ FitsInt scratchSize) := by
  refine ⟨?_, ?_, ?_, ?_⟩
  · exact length_valid_iff platform conn.writeBuf.length (List.length_pos_iff.mpr pending)
  · cases platform with
    | posix => exact iff_of_true (posix_never_fails valid) (Or.inl rfl)
    | windows =>
      constructor
      · intro never
        right
        by_contra unfit
        exact windows_fails pending valid unfit never
      · rintro (impossible | fits)
        · cases impossible
        · exact windows_never_fails pending valid fits
  · exact length_valid_iff platform scratchSize room
  · constructor
    · intro only
      by_contra unfit
      exact windows_misreads valid room unfit only
    · exact windows_receives valid room

/-- One pending byte and a scratch buffer of the server's size, on Windows: both lengths
are valid, and neither flushing nor receiving fails because of a size. -/
theorem kernel_lengths_small :
    LengthValid 1 (sendCall .windows { socket := ⟨7⟩, writeBuf := [42] }).length ∧
    NeverFailsBySize { socket := ⟨7⟩, writeBuf := [42] } .windows ∧
    LengthValid 16384
      (recvCall .windows { socket := ⟨7⟩, writeBuf := [42] } 16384).length ∧
    OnlyBlocksBySize { socket := ⟨7⟩, writeBuf := [42] } 16384 := by
  obtain ⟨sent, flushed, asked, received⟩ := kernel_lengths_exact .windows
    { socket := ⟨7⟩, writeBuf := [42] } (by decide) rfl 16384 (by decide)
  have one : FitsInt 1 := ⟨by decide, by decide⟩
  have scratch : FitsInt 16384 := ⟨by decide, by decide⟩
  exact ⟨sent.mpr (Or.inr one), flushed.mpr (Or.inr one), asked.mpr (Or.inr scratch),
    received.mpr scratch⟩

/-- A write buffer of `2^31` bytes on Windows: the length argument is `-2^31`. -/
theorem kernel_lengths_not_always_valid :
    ¬ ∀ (platform : Platform) (conn : Connection), conn.writeBuf ≠ [] →
      conn.writeBuf.length < 2 ^ 64 →
        LengthValid conn.writeBuf.length (sendCall platform conn).length := by
  intro always
  have size : (List.replicate (2 ^ 31) (0 : Byte)).length = 2 ^ 31 := List.length_replicate
  have pending : List.replicate (2 ^ 31) (0 : Byte) ≠ [] := by
    apply List.ne_nil_of_length_pos
    rw [size]
    decide
  obtain ⟨positive, _⟩ := always .windows
    { socket := ⟨7⟩, writeBuf := List.replicate (2 ^ 31) 0 } pending (by rw [size]; decide)
  simp only [sendCall, lengthArgument, size] at positive
  exact absurd positive (by decide)

end TcpServer.KernelLengths
