import Mathlib.Data.Fintype.Card
import TcpServer.EchoClient
import TcpServer.EventLoopBookkeeping
import TcpServer.FdSetRange
import TcpServer.Pipes

/-!
# The echo service

The benchmark as one closed system: any number of clients, the server loop, and the
kernel between them. Each connection has a pipe in each direction, with a capacity.
A client's calls block while nothing can be done; the server's calls report that
they would block. The kernel keeps the connections that have not been accepted in
the queue of the listener, hands out closed descriptors, and delivers the end of a
stream behind its last byte.

The server waits with `SelectPoller::wait` on its interest map. The order in which
the map is traversed and the answer of `::select` are left open; so are descriptors
outside the range of an `fd_set`, and failures of every system call of the server.
With them the server faults and aborts as the source does. What the results of the
later modules need of the kernel is a condition on runs, stated here as `Obliging`.

The calls of the clients are neither interrupted nor refused, and the pipes lose
nothing.
-/

namespace TcpServer.EchoService

open EchoClient EchoConnection SocketIo Acceptor Transition Pipes
open EventLoop (PollEvent Server kMaxPayload scratchSize openDescriptors)
open SelectWait (Entry InRange SelectAnswer WaitFault Waited wait)

/-- `k_accept_backlog`: how many connections may wait for the server. A further client
waits until there is room. -/
def kAcceptBacklog : Nat := 128

/-- `k_poll_ms`: how long the server waits for events, which the time of the model
does not count. -/
def kPollMs : Int := 50

/-- The array `events` of the server loop. What earlier rounds have left in it is not
read again, so each round starts from the array as it was declared. -/
def events : List PollEvent := List.replicate 64 ⟨kInvalidSocket, .none⟩

/-- How far the kernel is with a connection, as the server sees it: not asked for, in
the queue, accepted under a descriptor, or closed. -/
inductive Stage where
  | unconnected
  | pending
  | accepted (descriptor : Nat)
  | dropped
deriving DecidableEq, Repr

/-- A client with its connection: a pipe in each direction, and how far the kernel is.
-/
structure Session where
  client : Client
  up : Pipe Byte := {}
  down : Pipe Byte := {}
  stage : Stage := .unconnected

/-- The service: the server loop, and for each client its session. They meet in the
descriptors of the sessions. -/
structure State (ι : Type) where
  loop : EventLoop.State
  sessions : ι → Session

/-- What a step of the server leaves open. At the head of its loop these are the clock,
the `stop` flag, and in `wait` the order of the interest map and the answer of
`::select`. Elsewhere they are the session its system call is about, the descriptor
handed out, the answers of `::fcntl`, and the number of bytes moved; or the `errno`
that the call fails with. -/
structure ServerChoice (ι : Type) where
  deadlinePassed : Bool := false
  stop : Bool := false
  order : List Entry := []
  select : SelectAnswer := .returned 0 {}
  name : Option ι := none
  descriptor : Nat := 0
  flags : FcntlAnswers := {}
  count : Nat := 0
  failure : Option Errno := none

/-- Who takes the next step: a client, one of its pipes, or the server. Any order of
steps is a run. -/
inductive Action (ι : Type) where
  | client (name : ι) (count : Nat)
  | upward (name : ι) (count : Nat)
  | downward (name : ι) (count : Nat)
  | server (choice : ServerChoice ι)

/-- The server's end of this connection has the descriptor. Before it is accepted and
after it is closed it has none. -/
def Session.owns (session : Session) (handle : Int) : Bool :=
  match session.stage with
  | .accepted descriptor => (descriptor : Int) == handle
  | _ => false

/-- The server closes its end. What it has handed over still arrives, followed by the
end. -/
def Session.hangUp (session : Session) : Session :=
  { session with down := session.down.close, stage := .dropped }

/-- `accept_and_register` takes the connection over. Where `::fcntl` fails, the source
closes the new socket again. -/
def Session.takenOver (session : Session) (descriptor : Nat) (flags : FcntlAnswers) : Session :=
  if flags = {} then { session with stage := .accepted descriptor } else session.hangUp

/-- The client goes on; behind its last round it closes its socket, and the end
follows its last bytes. -/
def Session.goesOn (session : Session) (phase : EchoClient.Phase) : Session :=
  { session with
    client := { session.client with phase }
    up := if phase = .finished then session.up.close else session.up }

/-- A step of a connected client, with the kernel's answer to its call; `none` while
the call blocks. -/
def clientCall (endian : Endian) (capacity : Nat) (session : Session) (count : Nat) :
    Option Session :=
  match session.client.phase with
  | .encoding round => some (session.goesOn (encodePass session.client round))
  | .sending round wireOut off =>
      if session.stage = .dropped then
        (sendPass round wireOut off (.failed (.other 32))).map session.goesOn
      else if 0 < count ∧ count ≤ wireOut.length - off ∧ count ≤ session.up.room capacity then
        (sendPass round wireOut off (.sent count)).map
          { session with up := session.up.write ((wireOut.drop off).take count) }.goesOn
      else none
  | .receiving round acc =>
      if session.down.arrived ≠ [] then
        if 0 < count ∧ count ≤ session.down.arrived.length ∧
            count ≤ accSize session.client - acc.length then
          (recvPass endian session.client round acc
            (.received (session.down.arrived.take count))).map
            { session with down := session.down.read count }.goesOn
        else none
      else if session.down.tail = .ended then
        (recvPass endian session.client round acc (.received [])).map session.goesOn
      else none
  | _ => none

section Steps

variable {ι : Type} [Fintype ι] [DecidableEq ι]

/-- Change the session of one client, and leave the server and the other sessions
alone. -/
def State.update (state : State ι) (name : ι) (session : Session) : State ι :=
  { state with sessions := Function.update state.sessions name session }

omit [Fintype ι] in
/-- Changing the session of a client leaves the server and the place of its loop
alone. -/
@[simp] theorem update_loop (state : State ι) (name : ι) (session : Session) :
    (state.update name session).loop = state.loop := rfl

omit [Fintype ι] in
/-- The changed session is the one that was given. -/
@[simp] theorem update_own (state : State ι) (name : ι) (session : Session) :
    (state.update name session).sessions name = session := Function.update_self ..

omit [Fintype ι] in
/-- The sessions of the other clients are left alone, so a step of one client is
invisible to them. -/
theorem update_other (state : State ι) {name other : ι} (session : Session)
    (different : other ≠ name) :
    (state.update name session).sessions other = state.sessions other :=
  Function.update_of_ne different ..

/-- The length of the listener's queue. The kernel accepts from it, in an order of its
own. -/
def State.pending (state : State ι) : Nat :=
  (Finset.univ.filter fun name => (state.sessions name).stage = .pending).card

/-- A step of a client. Connecting waits for room in the listener's queue. -/
def clientStep (endian : Endian) (capacity : Nat) (state : State ι) (name : ι) (count : Nat) :
    Option (State ι) :=
  let session := state.sessions name
  if session.client.phase = .connecting then
    if state.pending < kAcceptBacklog then
      some (state.update name { session with
        client := { session.client with phase := .encoding 0 }
        stage := .pending })
    else none
  else (clientCall endian capacity session count).map (state.update name)

/-- The kernel's answer to the call that a handler makes next, if any, and what
the call does to the connection. -/
def callAnswer (capacity : Nat) (session : Session) (slot : ConnSlot)
    (phase : EchoConnection.Phase) (count : Nat) : Option (EventLoop.Choice × Session) :=
  match phase with
  | .receiving _ =>
      if session.up.arrived ≠ [] then
        if 0 < count ∧ count ≤ session.up.arrived.length ∧ count ≤ scratchSize then
          some ({ recv := [.received (session.up.arrived.take count)] },
            { session with up := session.up.read count })
        else none
      else if session.up.tail = .ended then some ({ recv := [.received []] }, session.hangUp)
      else some ({ recv := [.failed .eagain] }, session)
  | .flushing _ =>
      if slot.conn.writeBuf = [] then some ({}, session)
      else if session.down.room capacity = 0 then some ({ send := [.failed .eagain] }, session)
      else if 0 < count ∧ count ≤ slot.conn.writeBuf.length ∧
          count ≤ session.down.room capacity then
        some ({ send := [.sent count] },
          { session with down := session.down.write (slot.conn.writeBuf.take count) })
      else none
  | _ => some ({}, session)

/-- The answers that the next step of the server gets, with their effect. At the head of
its loop the server gets its answers from `waitCall`.

A call that fails has no effect on a connection. `EAGAIN` from `::accept` means that
nobody is in the queue of the listener, unless the kernel fails the call for no reason. -/
def answers (capacity : Nat) (state : State ι) (choice : ServerChoice ι) :
    Option (EventLoop.Choice × State ι) :=
  match state.loop.place with
  | .handling (.accepting _) =>
      match choice.failure, choice.name with
      | some errno, _ => some ({ accept := .failed errno }, state)
      | none, none =>
          if state.pending = 0 then some ({ accept := .failed .eagain }, state) else none
      | none, some name =>
          if (state.sessions name).stage = .pending ∧
              (choice.descriptor : Int) ∉ openDescriptors state.loop.server then
            some ({ accept := .accepted choice.descriptor, flags := choice.flags },
              state.update name
                ((state.sessions name).takenOver choice.descriptor choice.flags))
          else none
  | .handling (.serving index _ phase _) =>
      match choice.failure, state.loop.server.slots[index]?, choice.name with
      | some errno, _, _ => some ({ recv := [.failed errno], send := [.failed errno] }, state)
      | none, some slot, some name =>
          if (state.sessions name).owns slot.conn.nativeHandle then
            (callAnswer capacity (state.sessions name) slot phase choice.count).map
              fun (answer, session) => (answer, state.update name session)
          else none
      | _, _, _ => none
  | .cleaning =>
      match state.loop.server.slots.getLast?, choice.name with
      | none, _ => some ({}, state)
      | some back, some name =>
          if (state.sessions name).owns back.conn.nativeHandle then
            some ({}, state.update name (state.sessions name).hangUp)
          else none
      | some _, none => none
  | _ => some ({}, state)

/-- `poller.wait(events, k_poll_ms)`. The order must be one of the interest map. -/
def waitCall (poller : SelectPoller) (order : List Entry) (select : SelectAnswer) :
    Option (Except WaitFault Waited) :=
  if perm : order.Perm poller.interest.entries then
    some (wait poller ⟨order, perm⟩ events kPollMs fun _ => select)
  else none

/-- What the loop goes through behind `wait`: the first `n` events, or the error. -/
def batchOf (waited : Waited) : Except PollError (List PollEvent) :=
  waited.result.map fun n => waited.outEvents.take n

/-- The head of the loop: it ends, or it waits. Undefined behaviour inside `wait`
faults, whichever it is. -/
def roundStep (endian : Endian) (state : State ι) (choice : ServerChoice ι) :
    Option (State ι × List EventLoop.Event) :=
  let tests : EventLoop.Choice :=
    { deadlinePassed := choice.deadlinePassed, stop := choice.stop }
  if choice.deadlinePassed || choice.stop && state.loop.server.slots.isEmpty then
    (EventLoop.runServer endian state.loop tests).map fun (loop, told) =>
      ({ state with loop }, told)
  else
    match waitCall state.loop.server.poller choice.order choice.select with
    | none => none
    | some (.error _) =>
        some ({ state with loop.place := .handling (.faulted .outOfBounds) }, [])
    | some (.ok waited) =>
        (EventLoop.runServer endian state.loop { tests with batch := batchOf waited }).map
          fun (loop, told) => ({ state with loop }, told)

/-- A step of the server loop. At the top of the loop it waits; elsewhere the kernel
answers the call that it makes, on the pipes of the connection in question. -/
def serverStep (endian : Endian) (capacity : Nat) (state : State ι) (choice : ServerChoice ι) :
    Option (State ι × List EventLoop.Event) :=
  match state.loop.place with
  | .top => roundStep endian state choice
  | _ =>
      match answers capacity state choice with
      | none => none
      | some (answer, after) =>
          (EventLoop.runServer endian state.loop answer).map fun (loop, told) =>
            ({ after with loop }, told)

/-- A step of the service: of a client, of the kernel on one of the pipes, or of the
server. -/
def serviceStep (endian : Endian) (capacity : Nat) (state : State ι) :
    Action ι → Option (State ι × List EventLoop.Event)
  | .client name count => (clientStep endian capacity state name count).map fun next => (next, [])
  | .upward name count =>
      let session := state.sessions name
      (session.up.advance count).map fun up => (state.update name { session with up }, [])
  | .downward name count =>
      let session := state.sessions name
      (session.down.advance count).map fun down => (state.update name { session with down }, [])
  | .server choice => serverStep endian capacity state choice

/-- The whole service. -/
def echoService (ι : Type) [Fintype ι] [DecidableEq ι] (endian : Endian) (capacity : Nat) :
    System (State ι) (Action ι) EventLoop.Event where
  step := serviceStep endian capacity

/-- The server listens and no client has connected yet. -/
def started (listener : Socket) (clients : ι → Client) : State ι where
  loop := EventLoop.opened listener
  sessions name := { client := clients name }

/-- What the results below ask of a step of the server. The five minutes of the server
are not over, and the flag is only set when every client is done. No system call of
the server fails, other than with `EAGAIN` where it would block; and the descriptors
that `::accept` hands out fit into an `fd_set`. -/
structure Obliging (state : State ι) (choice : ServerChoice ι) : Prop where
  inTime : choice.deadlinePassed = false
  last : choice.stop = true → ∀ name, (state.sessions name).client.phase = .finished
  selects : ∀ errno, choice.select ≠ .failed errno
  succeeds : choice.failure = none
  unblocks : choice.flags = {}
  fits : InRange choice.descriptor

/-- The condition on runs: each step of the server is an obliging one. -/
def Orderly (state : State ι) : Action ι → Prop
  | .server choice => Obliging state choice
  | _ => True

end Steps

end TcpServer.EchoService
