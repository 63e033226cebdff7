import TcpServer.EventLoop
import TcpServer.LifecycleHistory

/-!
# The documented integration of the shutdown coordinator

One I/O thread runs the event loop and consults the coordinator as its header
describes: it unregisters the listener when new connections are no longer
wanted, asks again before each accept burst, and reports after each batch
whether the server is drained. Any number of other threads request the shutdown
or read the phase at any time.

The threads share the atomic phase only. The I/O thread's other steps are those of
the event loop; each load of the phase is a step of its own, so that a request may
fall between any two of them and between any two connections of an accept burst.
-/

namespace TcpServer.GracefulShutdown

open EchoConnection EventLoop Acceptor Lifecycle Threads

universe u

/-- The threads of the server: the one that runs the loop, and those that ask for the
shutdown. -/
inductive Party (ι : Type u) where
  | io
  | requester (thread : ι)
deriving DecidableEq

/-- Where the I/O thread stands in `run_server`: in front of a read of the phase, of
the wait, of an event of the batch, or of a step of the coordinator. -/
inductive Place where
  | pollCheck
  | acceptCheck
  | polling
  | handling (place : Handling)
  | listenerCheck (event : PollEvent) (rest : List PollEvent)
  | advancing (call : Lifecycle.Local)
  | exitCheck
  | cleaning
  | finished

/-- The I/O thread: its server, its flag and its place. Nobody else reads or writes
any of them. -/
structure IoState where
  server : Server
  listenerUnregistered : Bool := false
  place : Place := .pollCheck

/-- The local state of each thread. What they share is the phase, and nothing else. -/
def LocalOf {ι : Type u} : Party ι → Type
  | .io => IoState
  | .requester _ => Lifecycle.Local

/-- What a step is given: the answers of the kernel, and what another party may
choose. -/
structure Choice where
  loop : EventLoop.Choice := {}
  lifecycle : Lifecycle.Choice := {}

/-- What the parties tell: the events of the loop, the one unregistering of the
listener, and those of the coordinator. -/
inductive Event (ι : Type u) where
  | loop (event : EventLoop.Event)
  | unregistered
  | lifecycle (event : Lifecycle.Event (Party ι))

/-- A connection comes into the server: the kernel hands it out, or it gets a slot.
Neither may happen once a shutdown has begun. -/
def Event.admits {ι : Type u} : Event ι → Bool
  | .loop (.accepted _) | .loop (.added _) => true
  | .loop (.removed _) | .unregistered | .lifecycle _ => false

/-- Some connection still has bytes to send, as the source asks it of all slots in
front of its report. -/
def anyPendingWrites (slots : List ConnSlot) : Bool :=
  slots.any fun slot => !slot.conn.writeBuf.isEmpty

/-- The arguments that the I/O thread passes to `try_advance_to_stopped_if_drained`.
They are about its own state and so are still true when they arrive. -/
def reportOf (state : IoState) : DrainReport where
  listenerStopped := state.listenerUnregistered
  activeConnectionCount := state.server.slots.length
  anyConnectionHasPendingWrites := anyPendingWrites state.server.slots

/-- The limit on payloads of this server, under which it decodes and encodes. It is a
constant of the program, not of the configuration. -/
def kMaxPayload : UInt64 := 4096

/-- The size of the scratch buffer into which this server receives, and so the most
that one call can deliver. -/
def scratchSize : Nat := 4096

variable {ι : Type u}

/-- `acceptor.unregister_listener(poller)`: the listener is taken out of the interest
map, and its socket stays open. -/
def unregister (server : Server) : Server :=
  { server with poller := (unregisterListener server.listener server.poller).2 }

/-- The I/O thread of `run_server`, from the head of its loop to its return. Each read
of the phase is a step of its own, so the others may come in between. -/
def ioStep (endian : Endian) (build : Build) (phase : ShutdownPhase) (state : IoState)
    (choice : Choice) : Option (ShutdownPhase × IoState × List (Event ι)) :=
  match state.place with
  | .pollCheck =>
      if shouldPollNetwork phase && !choice.loop.deadlinePassed then
        some (phase, { state with place := .acceptCheck }, [])
      else some (phase, { state with place := .exitCheck }, [])
  | .acceptCheck =>
      if !shouldAcceptNewConnections phase && !state.listenerUnregistered then
        some (phase, ⟨unregister state.server, true, .polling⟩, [.unregistered])
      else some (phase, { state with place := .polling }, [])
  | .polling =>
      match choice.loop.batch with
      | .error error =>
          some (phase, { state with place := .handling (.aborted (.waitFailed error)) }, [])
      | .ok events => some (phase, { state with place := .handling (.dispatching events) }, [])
  | .handling (.dispatching []) =>
      some (phase, { state with place := .advancing (.advanceLoad (reportOf state)) }, [])
  | .handling (.dispatching (event :: rest)) =>
      if event.socket = state.server.listener.nativeHandle then
        some (phase, { state with place := .listenerCheck event rest }, [])
      else
        some (phase, { state with place := .handling (connectionEvent state.server event rest) },
          [])
  | .listenerCheck event rest =>
      if !shouldAcceptNewConnections phase then
        some (phase, { state with place := .handling (.dispatching rest) }, [])
      else some (phase, { state with place := .handling (listenerEvent event rest) }, [])
  | .handling (.accepting rest) =>
      let (server, place, events) := acceptPass state.server rest choice.loop
      some (phase, { state with server, place := .handling place }, events.map .loop)
  | .handling (.serving index socket stage rest) =>
      match servePass endian kMaxPayload scratchSize state.server index socket stage rest
          choice.loop with
      | none => none
      | some (server, place, events) =>
          some (phase, { state with server, place := .handling place }, events.map .loop)
  | .handling (.aborted _) => none
  | .handling (.faulted _) => none
  | .advancing call =>
      match (coordinatorOf (Party ι) build).step .io phase call choice.lifecycle with
      | none => none
      | some (after, own, events) =>
          some (after,
            { state with place := if own = .idle then .pollCheck else .advancing own },
            events.map .lifecycle)
  | .exitCheck =>
      if phase = .stopped then some (phase, { state with place := .cleaning }, [])
      else some (phase, { state with place := .handling (.aborted .notStopped) }, [])
  | .cleaning =>
      if !state.server.slots.isEmpty then
        some (phase, { state with server := popSlot state.server }, [])
      else if !state.listenerUnregistered then
        some (phase, { state with server := unregister state.server, place := .finished },
          [.unregistered])
      else some (phase, { state with place := .finished }, [])
  | .finished => none

/-- Only the I/O thread reports that the server is drained. The other threads have no
state from which they could. -/
def reports (choice : Lifecycle.Choice) : Bool :=
  match choice.call with
  | some (.tryAdvanceToStoppedIfDrained _) => true
  | _ => false

/-- Any other thread: it requests the shutdown or reads the phase, again and again, in
the steps of the coordinator. -/
def requesterStep (build : Build) (thread : ι) (phase : ShutdownPhase) (call : Lifecycle.Local)
    (choice : Choice) : Option (ShutdownPhase × Lifecycle.Local × List (Event ι)) :=
  if reports choice.lifecycle then none
  else
    match (coordinatorOf (Party ι) build).step (.requester thread) phase call choice.lifecycle with
    | none => none
    | some (after, own, events) => some (after, own, events.map .lifecycle)

/-- The integration, with the coordinator of either build: one I/O thread, and any
number of others. -/
def integration (ι : Type u) (endian : Endian) (build : Build) :
    Program (Party ι) LocalOf ShutdownPhase Choice (Event ι) where
  step
    | .io => ioStep endian build
    | .requester thread => requesterStep build thread

/-- The I/O thread enters its loop, with the listener registered; no other thread
has called the coordinator yet. -/
def started (ι : Type u) (listener : Socket) : Config (LocalOf (ι := ι)) ShutdownPhase where
  shared := .running
  locals
    | .io =>
        match registerListener listener {} with
        | (.error error, poller) =>
            { server := { listener, poller }, place := .handling (.aborted (.registerFailed error)) }
        | (.ok (), poller) => { server := { listener, poller } }
    | .requester _ => Lifecycle.Local.idle

/-- The I/O thread of a configuration, with its server and its place. -/
def ioOf (config : Config (LocalOf (ι := ι)) ShutdownPhase) : IoState := config.locals .io

end TcpServer.GracefulShutdown
