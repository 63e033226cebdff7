import TcpServer.Acceptor
import TcpServer.EchoConnection
import TcpServer.Registry

/-!
# The event loop of the echo server

The server keeps its connections in a vector of slots, in no particular order,
and finds them by their descriptors. One round of the loop waits for a batch of
events and handles them one after the other: an event of the listener accepts
connections until the kernel has none, an event of a connection runs the read
and write handlers on its slot. A closed connection's slot is filled with the
last one.

Each accepted connection, each pass through a loop of a handler and each event
is one step. What the poller reports and what the kernel answers are choices of
the run; a batch may name any sockets with any masks. The functions below are
those that the echo server's `run_server` shares with the integration test of
the graceful shutdown.
-/

namespace TcpServer.EventLoop

open EchoConnection SocketIo Acceptor Registry Transition

/-- The `Event` that a poller reports: a socket, and what it is ready for. -/
structure PollEvent where
  socket : Int
  mask : EventMask
deriving DecidableEq, Repr

/-- The local variables of `run_server` that its handlers share, and the number of
echoes that they have counted. -/
structure Server where
  listener : Socket
  slots : List ConnSlot := []
  poller : SelectPoller := {}
  completions : Nat := 0

/-- What the `std::atomic<int>` holds after that many `fetch_add(1)`. Adding to an atomic
integer wraps, so this is the number of echoes modulo `2 ^ 32`, as a signed number. -/
def Server.counter (server : Server) : Int32 := Int32.ofNat server.completions

/-- The `std::abort` calls and failed asserts of the loop, each with the error that
has led to it. -/
inductive Abort where
  | handler (cause : EchoConnection.Abort)
  | registerFailed (error : PollError)
  | waitFailed (error : PollError)
  | acceptFailed (error : AcceptError)
  | notStopped
deriving DecidableEq, Repr

/-- Where the loop over a batch stands. `serving` is a handler on the slot at
`index`, found for `socket`; `events` are those behind the one being handled. -/
inductive Handling where
  | dispatching (events : List PollEvent)
  | accepting (events : List PollEvent)
  | serving (index : Nat) (socket : Int) (phase : Phase) (events : List PollEvent)
  | aborted (cause : Abort)
  | faulted (fault : Fault)

/-- What a step leaves open: the answers of the poller, the kernel, the clock
and the `stop` flag. -/
structure Choice where
  batch : Except PollError (List PollEvent) := .ok []
  accept : AcceptAnswer := .failed .eagain
  flags : FcntlAnswers := {}
  recv : List RecvAnswer := []
  send : List SendAnswer := []
  deadlinePassed : Bool := false
  stop : Bool := false

/-- What happens to connections: the kernel hands out a descriptor, a slot is
added, a slot is removed. -/
inductive Event where
  | accepted (socket : Int)
  | added (socket : Int)
  | removed (socket : Int)
deriving DecidableEq, Repr

/-- The descriptors of the slots, in their order. Finding a slot is a search in this
list. -/
def handles (slots : List ConnSlot) : List Int := slots.map fun slot => slot.conn.nativeHandle

/-- The index of the first slot with this descriptor; `none` is the source's
`static_cast<std::size_t>(-1)`. -/
def findSlotIndex (slots : List ConnSlot) (h : Int) : Option Nat :=
  slots.findIdx? fun slot => slot.conn.nativeHandle == h

/-- `remove_slot`: forget the interest of a slot and fill its place with the last
slot. -/
def removeSlot (slots : List ConnSlot) (i : Nat) (poller : SelectPoller) :
    List ConnSlot × SelectPoller :=
  match slots[i]? with
  | none => (slots, poller)
  | some slot => (swapPop slots i, (poller.erase slot.conn.nativeHandle).2)

/-- The two numbers under which `accept` reports that nobody waits. On many systems
they are one. -/
def acceptWouldBlock (error : Option Errno) : Bool :=
  error == some .eagain || error == some .ewouldblock

/-- An event of the listener. Unless it is readable there is nothing to accept. -/
def listenerEvent (event : PollEvent) (rest : List PollEvent) : Handling :=
  if event.mask.has .read then .accepting rest else .dispatching rest

/-- The writable half of a connection's event: the slot is looked up again, since the
read handler may have removed it. -/
def writeEvent (server : Server) (socket : Int) (rest : List PollEvent) : Handling :=
  match findSlotIndex server.slots socket with
  | none => .dispatching rest
  | some widx => .serving widx socket (.flushing .eventLoop) rest

/-- An event of a connection. One whose slot is gone is skipped. -/
def connectionEvent (server : Server) (event : PollEvent) (rest : List PollEvent) : Handling :=
  match findSlotIndex server.slots event.socket with
  | none => .dispatching rest
  | some idx =>
      if event.mask.has .read then
        .serving idx event.socket (.receiving (event.mask.has .write)) rest
      else if event.mask.has .write then writeEvent server event.socket rest
      else .dispatching rest

/-- One pass through the accept loop: a connection gets a slot, or nobody waits and
the loop ends. -/
def acceptPass (server : Server) (rest : List PollEvent) (choice : Choice) :
    Server × Handling × List Event :=
  let taken := match acceptOne server.listener choice.accept with
    | .ok socket => [.accepted socket.nativeHandle]
    | .error _ => []
  match acceptAndRegister SelectPoller.upsert server.listener server.poller choice.accept
      choice.flags with
  | (.error error, poller) =>
      ({ server with poller },
        if acceptWouldBlock error.nativeError then .dispatching rest
        else .aborted (.acceptFailed error),
        taken)
  | (.ok conn, poller) =>
      ({ server with slots := server.slots ++ [{ conn }], poller }, .accepting rest,
        taken ++ [.added conn.nativeHandle])

/-- The read handler has just returned to the event loop in front of the write
handler. -/
def leavesReadHandler : Phase → Phase → Bool
  | .receiving _, .flushing .eventLoop => true
  | _, _ => false

/-- One pass of a handler on the slot at `index`, which is stored back or, if the peer
has closed, removed. -/
def servePass (endian : Endian) (maxPayloadBytes : UInt64) (scratchSize : Nat) (server : Server)
    (index : Nat) (socket : Int) (phase : Phase) (rest : List PollEvent) (choice : Choice) :
    Option (Server × Handling × List Event) :=
  match server.slots[index]? with
  | none => some (server, .faulted .outOfBounds, [])
  | some slot =>
      match serverStep endian maxPayloadBytes scratchSize
          ⟨slot, server.poller, server.completions, phase⟩
          { recv := choice.recv, send := choice.send } with
      | none => none
      | some (served, _) =>
          let stored : Server := { server with
            slots := server.slots.set index served.slot
            poller := served.poller
            completions := served.completions }
          match served.phase with
          | .waiting => some (stored, .dispatching rest, [])
          | .peerClosed =>
              let (slots, poller) := removeSlot stored.slots index server.poller
              some ({ stored with slots, poller }, .dispatching rest,
                [.removed slot.conn.nativeHandle])
          | .aborted cause => some (stored, .aborted (.handler cause), [])
          | .faulted fault => some (stored, .faulted fault, [])
          | later =>
              if leavesReadHandler phase later then some (stored, writeEvent stored socket rest, [])
              else some (stored, .serving index socket later rest, [])

/-- `while (!slots.empty())`: one slot after the main loop, from the back. -/
def popSlot (server : Server) : Server :=
  match server.slots.getLast? with
  | none => server
  | some back => { server with
      slots := server.slots.dropLast
      poller := (server.poller.erase back.conn.nativeHandle).2 }

/-- Where `run_server` stands: in front of a wait, in the batch that the wait has
given, among the connections left at the end, or behind them. -/
inductive Place where
  | top
  | handling (place : Handling)
  | cleaning
  | finished

/-- The server with its place in the loop. This is all that one step leaves for the
next. -/
structure State where
  server : Server
  place : Place

/-- `k_max_payload` of the benchmark: one MiB, for decoding and for encoding. -/
def kMaxPayload : UInt64 := (1 : UInt64) <<< 20

/-- The size of the scratch buffer of the server, and so the most that one call
delivers. -/
def scratchSize : Nat := 16384

/-- `run_server` up to its loop, behind the binding of its listener. It ends there if
the listener cannot be registered. -/
def opened (listener : Socket) : State :=
  match registerListener listener {} with
  | (.error error, poller) => ⟨{ listener, poller }, .handling (.aborted (.registerFailed error))⟩
  | (.ok (), poller) => ⟨{ listener, poller }, .top⟩

/-- A step of `run_server`. At the top of the loop it is over when the deadline has
passed, or when the flag is set and no connection is left; otherwise it waits, and
goes on with the batch that the wait has returned. -/
def runServer (endian : Endian) (state : State) (choice : Choice) : Option (State × List Event) :=
  match state.place with
  | .top =>
      if choice.deadlinePassed then some ({ state with place := .cleaning }, [])
      else if choice.stop && state.server.slots.isEmpty then
        some ({ state with place := .cleaning }, [])
      else
        match choice.batch with
        | .error error => some ({ state with place := .handling (.aborted (.waitFailed error)) }, [])
        | .ok events => some ({ state with place := .handling (.dispatching events) }, [])
  | .handling (.dispatching []) => some ({ state with place := .top }, [])
  | .handling (.dispatching (event :: rest)) =>
      if event.socket = state.server.listener.nativeHandle then
        some ({ state with place := .handling (listenerEvent event rest) }, [])
      else some ({ state with place := .handling (connectionEvent state.server event rest) }, [])
  | .handling (.accepting rest) =>
      let (server, place, events) := acceptPass state.server rest choice
      some (⟨server, .handling place⟩, events)
  | .handling (.serving index socket phase rest) =>
      match servePass endian kMaxPayload scratchSize state.server index socket phase rest
          choice with
      | none => none
      | some (server, place, events) => some (⟨server, .handling place⟩, events)
  | .handling (.aborted _) => none
  | .handling (.faulted _) => none
  | .cleaning =>
      if state.server.slots.isEmpty then
        some (⟨{ state.server with
          poller := (unregisterListener state.server.listener state.server.poller).2 },
          .finished⟩, [])
      else some ({ state with server := popSlot state.server }, [])
  | .finished => none

/-- The server loop, with every answer of the poller, the kernel and the clock in the
choice of the step. -/
def echoServer (endian : Endian) : System State Choice Event where
  step := runServer endian

end TcpServer.EventLoop
