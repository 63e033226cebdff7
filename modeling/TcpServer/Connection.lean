import TcpServer.Platform

/-!
# Connections

A connection owns its socket and two byte buffers. Appending adds at the back;
consuming removes from the front. The asserts of the consuming functions are
part of the model, as is their clearing branch for a full consumption. The
native socket of the POSIX branch is an `int`.
-/

namespace TcpServer

/-- The number that stands for no socket. It is the value of a socket that has been
moved from or closed. -/
def kInvalidSocket : Int := -1

/-- The descriptor held by a `Socket` object. Ownership is not part of this model: the
object is a value here, and closing has a model of its own. -/
structure Socket where
  socket : Int := kInvalidSocket
deriving DecidableEq, Repr

/-- Whether the object holds a descriptor at all; it may have been closed elsewhere.
-/
def Socket.valid (s : Socket) : Bool := s.socket != kInvalidSocket

/-- The descriptor as system calls and the interest map use it. Asking for it does not
give it away. -/
def Socket.nativeHandle (s : Socket) : Int := s.socket

/-- The states that a connection can be in by its own account. No operation of this
module reads them. -/
inductive ConnectionState where
  | closed
  | reading
  | parsing
  | handling
  | writing
  | closing
deriving DecidableEq, Repr

/-- A connection: its socket, the bytes that were received and not decoded yet, and
those that wait to be sent. It starts out reading, with empty buffers. -/
structure Connection where
  socket : Socket
  state : ConnectionState := .reading
  readBuf : List Byte := []
  writeBuf : List Byte := []
deriving DecidableEq, Repr

namespace Connection

/-- The descriptor of the connection, by which the event loop finds its slot and the
poller its mask. -/
def nativeHandle (conn : Connection) : Int := conn.socket.nativeHandle

/-- Received bytes go behind those that have not been decoded. The write buffer is not
touched. -/
def appendRead (conn : Connection) (data : List Byte) : Connection :=
  { conn with readBuf := conn.readBuf ++ data }

/-- Bytes to be sent go behind those that still wait, so replies leave in the order in
which they were made. -/
def appendWrite (conn : Connection) (data : List Byte) : Connection :=
  { conn with writeBuf := conn.writeBuf ++ data }

/-- Forget all bytes that wait to be sent. The event loops do so for a connection that
its peer has closed. -/
def clearWrite (conn : Connection) : Connection := { conn with writeBuf := [] }

/-- What both consuming functions do to their buffer: assert that so many bytes are
there, clear the buffer when all are consumed, and erase the front otherwise. -/
def consume (buffer : List Byte) (byteCount : Nat) : Except Fault (List Byte) := do
  check (byteCount ≤ buffer.length)
  if byteCount ≥ buffer.length then
    return []
  return buffer.drop byteCount

/-- `consume_read`: remove decoded bytes from the front of the read buffer. Removing
more than there are fails the assert. -/
def consumeRead (conn : Connection) (byteCount : Nat) : Except Fault Connection := do
  return { conn with readBuf := ← consume conn.readBuf byteCount }

/-- `consume_write`: remove sent bytes from the front of the write buffer. Removing
more than there are fails the assert. -/
def consumeWrite (conn : Connection) (byteCount : Nat) : Except Fault Connection := do
  return { conn with writeBuf := ← consume conn.writeBuf byteCount }

/-- Consuming within the buffer drops the consumed front. The clearing branch is no
exception: it is the case of the whole buffer, and dropping all of it leaves nothing.
-/
theorem consume_within (buffer : List Byte) (byteCount : Nat) (within : byteCount ≤ buffer.length) :
    consume buffer byteCount = .ok (buffer.drop byteCount) := by
  by_cases whole : byteCount ≥ buffer.length
  · simp [consume, within, whole, bind, Except.bind, pure, Except.pure]
  · simp [consume, within, whole, bind, Except.bind, pure, Except.pure]

/-- Consuming read bytes that are there succeeds, and changes only the read buffer.
The decode loop consumes no others. -/
theorem consume_read_within (conn : Connection) (byteCount : Nat)
    (within : byteCount ≤ conn.readBuf.length) :
    conn.consumeRead byteCount = .ok { conn with readBuf := conn.readBuf.drop byteCount } := by
  simp [consumeRead, consume_within _ _ within, bind, Except.bind, pure, Except.pure]

/-- Consuming written bytes that are there succeeds, and changes only the write
buffer. -/
theorem consume_write_within (conn : Connection) (byteCount : Nat)
    (within : byteCount ≤ conn.writeBuf.length) :
    conn.consumeWrite byteCount = .ok { conn with writeBuf := conn.writeBuf.drop byteCount } := by
  simp [consumeWrite, consume_within _ _ within, bind, Except.bind, pure, Except.pure]

end Connection

end TcpServer
