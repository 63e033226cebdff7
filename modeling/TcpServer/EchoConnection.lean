import TcpServer.Dispatcher
import TcpServer.FrameCodec
import TcpServer.SelectPoller
import TcpServer.SocketIo
import TcpServer.Transition

/-!
# The echo server on one connection

The read and write handlers of the event loop, `process_connection_read` and
`try_flush_writes`, as they drive one open connection: receive, decode, dispatch,
encode, consume, flush. Each pass through one of their loops is one step. The
scheduling of readable and writable events and all answers of the kernel are
choices of the run.

The history records the bytes that the kernel delivered and accepted. They are
read from its answers, not from the connection's buffers.
-/

namespace TcpServer.EchoConnection

open Dispatcher FrameDecoder FrameEncoder FrameCodec PrefixDecoder SocketIo Transition

/-- A slot of the server: the connection, and whether a reply waits to be flushed. The
flag decides what counts as a completion. -/
structure ConnSlot where
  conn : Connection
  awaitingReplyFlush : Bool := false

/-- Where `try_flush_writes` returns to: the read handler, which decodes on, or the
event loop. -/
inductive Caller where
  | readHandler (thenWrite : Bool)
  | eventLoop
deriving DecidableEq, Repr

/-- The `std::abort` calls of the handlers, each with the error that has led to it. -/
inductive Abort where
  | sendFailed (error : SendError)
  | recvFailed (error : RecvError)
  | oversizedLength
  | dispatchFailed (error : DispatchError)
  | encodeFailed (error : FrameEncodeError)
deriving DecidableEq, Repr

/-- The loop that the server is about to enter or repeat. In the read handler,
`thenWrite` says that the event being handled is also a writable event. -/
inductive Phase where
  | waiting
  | receiving (thenWrite : Bool)
  | decoding (thenWrite : Bool)
  | flushing (caller : Caller)
  | peerClosed
  | aborted (cause : Abort)
  | faulted (fault : Fault)
deriving DecidableEq, Repr

/-- What a handler works on: its slot, the poller, the counter of completions, and
where it is. -/
structure ServerState where
  slot : ConnSlot
  poller : SelectPoller
  completions : Nat := 0
  phase : Phase := .waiting

/-- What the run leaves open: the mask of the next event, and the answers of the
kernel to the receive or send call of this step. -/
structure Choice where
  mask : EventMask := .none
  recv : List RecvAnswer := []
  send : List SendAnswer := []

/-- What a handler tells of a connection: the bytes it has received, and the bytes
that the kernel has accepted. -/
inductive Event where
  | received (bytes : List Byte)
  | accepted (bytes : List Byte)
deriving DecidableEq, Repr

/-- Where the server goes on after `try_flush_writes`. The read handler may have
called it in the middle of its decoding. -/
def Caller.resume : Caller → Phase
  | .readHandler thenWrite => .decoding thenWrite
  | .eventLoop => .waiting

/-- `(void)poller.upsert(conn.native_handle(), interest)`. The source ignores the
result, and so does the model. -/
def ServerState.upsert (state : ServerState) (interest : EventMask) : SelectPoller :=
  (state.poller.upsert state.slot.conn.nativeHandle interest).2

/-- The event loop's treatment of one event for this connection. Reading comes first
and is told whether to write afterwards. -/
def handleEvent (state : ServerState) (mask : EventMask) : ServerState :=
  if mask.has .read then { state with phase := .receiving (mask.has .write) }
  else if mask.has .write then { state with phase := .flushing .eventLoop }
  else state

/-- One pass through the outer loop of `process_connection_read`, up to its decode
loop. What was received is behind the bytes that had not been decoded. -/
def receivePass (scratchSize : Nat) (state : ServerState) (thenWrite : Bool)
    (answers : List RecvAnswer) : Option (ServerState × List Event) :=
  match receiveNonblocking state.slot.conn scratchSize answers with
  | none => none
  | some (.ok _, conn) =>
      some ({ state with slot.conn := conn, phase := .decoding thenWrite },
        [.received (deliveredBytes answers)])
  | some (.error error, _) =>
      if error.code = .wouldBlock then
        some ({ state with phase := if thenWrite then .flushing .eventLoop else .waiting }, [])
      else if error.code = .closed then
        some ({ state with
          slot.conn := { state.slot.conn.clearWrite with readBuf := [] }
          poller := (state.poller.erase state.slot.conn.nativeHandle).2
          phase := .peerClosed }, [])
      else some ({ state with phase := .aborted (.recvFailed error) }, [])

/-- One pass through the decode loop of `process_connection_read`, up to its call
of `try_flush_writes`. -/
def decodePass (endian : Endian) (maxPayloadBytes : UInt64) (state : ServerState)
    (thenWrite : Bool) : ServerState :=
  match tryDecodeFrame (lp64 endian) state.slot.conn.readBuf maxPayloadBytes with
  | .error fault => { state with phase := .faulted fault }
  | .ok dec =>
      match dec.status with
      | .incomplete => { state with phase := .receiving thenWrite }
      | .oversizedLength => { state with phase := .aborted .oversizedLength }
      | .complete =>
          match echoDispatch dec.payload with
          | .error error => { state with phase := .aborted (.dispatchFailed error) }
          | .ok out =>
              match appendEncodedFrame state.slot.conn.writeBuf out maxPayloadBytes with
              | .error fault => { state with phase := .faulted fault }
              | .ok (.error error, writeBuf) =>
                  { state with
                    slot.conn := { state.slot.conn with writeBuf }
                    phase := .aborted (.encodeFailed error) }
              | .ok (.ok (), writeBuf) =>
                  match { state.slot.conn with writeBuf }.consumeRead dec.consumedBytes with
                  | .error fault => { state with phase := .faulted fault }
                  | .ok conn =>
                      { state with
                        slot := { conn, awaitingReplyFlush := true }
                        poller := state.upsert (.read ||| .write)
                        phase := .flushing (.readHandler thenWrite) }

/-- The end of `try_flush_writes`, behind its loop: a completed reply is counted, and
the interest is set to what is left to do. -/
def flushed (state : ServerState) (caller : Caller) : ServerState :=
  if state.slot.conn.writeBuf = [] then
    { state with
      slot.awaitingReplyFlush := false
      completions := state.completions + (if state.slot.awaitingReplyFlush then 1 else 0)
      poller := state.upsert .read
      phase := caller.resume }
  else { state with poller := state.upsert (.read ||| .write), phase := caller.resume }

/-- One pass through the loop of `try_flush_writes`. It goes on until the buffer is
empty or the socket would block. -/
def flushPass (state : ServerState) (caller : Caller) (answers : List SendAnswer) :
    Option (ServerState × List Event) :=
  match flushWriteNonblocking state.slot.conn answers with
  | none => none
  | some (.error fault) => some ({ state with phase := .faulted fault }, [])
  | some (.ok (.error error, _)) =>
      if error.code = .wouldBlock then
        some ({ state with poller := state.upsert (.read ||| .write), phase := caller.resume }, [])
      else some ({ state with phase := .aborted (.sendFailed error) }, [])
  | some (.ok (.ok sent, conn)) =>
      if sent = 0 then some (flushed { state with slot.conn := conn } caller, [])
      else some ({ state with slot.conn := conn },
        [.accepted (acceptedBytes state.slot.conn.writeBuf answers)])

/-- A step of the handler of one connection. The choice holds the answers of the
kernel to the call that the step makes. -/
def serverStep (endian : Endian) (maxPayloadBytes : UInt64) (scratchSize : Nat)
    (state : ServerState) (choice : Choice) : Option (ServerState × List Event) :=
  match state.phase with
  | .waiting => some (handleEvent state choice.mask, [])
  | .receiving thenWrite => receivePass scratchSize state thenWrite choice.recv
  | .decoding thenWrite => some (decodePass endian maxPayloadBytes state thenWrite, [])
  | .flushing caller => flushPass state caller choice.send
  | .peerClosed => none
  | .aborted _ => none
  | .faulted _ => none

/-- The handlers with the same limit for decoding and encoding, as one step system
over the kernel's answers. -/
def echoServer (endian : Endian) (maxPayloadBytes : UInt64) (scratchSize : Nat) :
    System ServerState Choice Event where
  step := serverStep endian maxPayloadBytes scratchSize

/-- An accepted connection, registered for reading, with empty buffers. -/
def opened (socket : Socket) : ServerState where
  slot := { conn := { socket } }
  poller := (SelectPoller.upsert {} socket.nativeHandle .read).2

/-- Everything the kernel has delivered, in order, whether it has been decoded or not.
-/
def received (history : List Event) : List Byte :=
  history.flatMap fun event => match event with
    | .received bytes => bytes
    | .accepted _ => []

/-- Everything the kernel has accepted, in order, whether the peer has read it or not.
-/
def accepted (history : List Event) : List Byte :=
  history.flatMap fun event => match event with
    | .received _ => []
    | .accepted bytes => bytes

end TcpServer.EchoConnection
