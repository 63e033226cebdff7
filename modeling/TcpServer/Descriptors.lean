import TcpServer.Acceptor
import TcpServer.Custody

/-!
# Descriptors and the objects that own them

`Socket` objects come and go, each with the descriptor in its member `socket_`; the
kernel keeps a table of the open descriptors. Numbers are used again, so every
opening has a serial of its own. The member functions of `Socket` are the basic
operations. `create_tcp_v4`, `bind_and_listen`, `accept_one` and
`accept_and_register` go through them statement by statement, with every object
that the source creates on the way: locals, parameters, temporaries and the value
inside the returned `std::expected`. A `Listener` or `Connection` stands for its
`Socket` member.

The program around these functions may make any calls in any order. The answers of
the kernel, of the resolver and of the poller are choices of the run. A failed
`::close` gives the descriptor up like a successful one.
-/

namespace TcpServer.Descriptors

open SocketIo Acceptor Transition

/-- The identity of a `Socket` object; no two objects ever share one, not even at
different times. -/
abbrev Object := Nat

/-- An open descriptor: which opening it stems from, and whether `release` has
given it to the program. -/
structure Opening where
  serial : Nat
  released : Bool := false
deriving DecidableEq, Repr

/-- The socket objects that were made, and the table of the process: which descriptor
is open, and under which serial number it was opened. -/
structure World where
  objects : Object → Option Socket := fun _ => none
  nextObject : Object := 0
  table : Int → Option Opening := fun _ => none
  openings : Nat := 0

/-- What opening a listener can fail with, one code for each system call on the way.
-/
inductive ListenerErrorCode where
  | resolveFailed
  | createFailed
  | setSockOptFailed
  | bindFailed
  | listenFailed
deriving DecidableEq, Repr

/-- What the source passes as `native_error`: 0, an `errno`, or the code of the
resolver. The three are told apart here. -/
inductive NativeError where
  | zero
  | errno (errno : Errno)
  | resolver (code : Int)
deriving DecidableEq, Repr

/-- The error of opening a listener, with the step at which it failed. -/
structure ListenerError where
  code : ListenerErrorCode
  message : String
  nativeError : NativeError
deriving DecidableEq, Repr

/-- What a call returns: the object inside the returned value, or an error. With an
error no object comes out. -/
inductive Outcome where
  | socket (object : Object)
  | socketFailed (error : SocketError)
  | listenerFailed (error : ListenerError)
  | acceptFailed (error : AcceptError)
deriving DecidableEq, Repr

/-- What a run tells of its descriptors: the entries of the ledger, and what calls
return. `misclosed` is a `::close` of a number that is not open. -/
inductive Event where
  | custody (event : Custody.Event Nat Object)
  | misclosed (s : Int)
  | closeReturned (result : Except SocketError Unit)
  | releaseReturned (s : Int)
  | returned (outcome : Outcome)

section Operations

/-- The descriptor of an object, `k_invalid_socket` when there is no such object. An
empty object has the same. -/
def World.handle (world : World) (object : Object) : Int :=
  match world.objects object with
  | some socket => socket.nativeHandle
  | none => kInvalidSocket

/-- Assign to the member of a live object. This alone moves nothing in the table of
the kernel. -/
def World.store (world : World) (object : Object) (s : Int) : World :=
  { world with
    objects := Function.update world.objects object
      ((world.objects object).map fun _ => ⟨s⟩) }

/-- A new object with this member, under a number that none has had before. -/
def World.create (world : World) (s : Int) : World × Object :=
  ({ world with
    objects := Function.update world.objects world.nextObject (some ⟨s⟩)
    nextObject := world.nextObject + 1 }, world.nextObject)

/-- The kernel opens a descriptor under this number. Each opening has a serial number
of its own, so a reused number is told apart. -/
def World.opened (world : World) (s : Int) : World :=
  { world with
    table := Function.update world.table s (some { serial := world.openings })
    openings := world.openings + 1 }

/-- `::close(s)`, whatever it answers: the number is free afterwards. Closing one that
is not open is recorded as such. -/
def osClose (world : World) (s : Int) : World × List Event :=
  match world.table s with
  | some opening =>
      ({ world with table := Function.update world.table s none },
        [.custody (.closed opening.serial)])
  | none => (world, [.misclosed s])

/-- The descriptor `s`, if it is open, comes into an object. An invalid one moves
nothing. -/
def moves (world : World) (s : Int) (object : Object) : List Event :=
  match world.table s with
  | some opening => [.custody (.moved opening.serial object)]
  | none => []

/-- `Socket::Socket()`: an object that has no descriptor. -/
def construct (world : World) : World × Object := world.create kInvalidSocket

/-- `Socket::Socket(NativeSocket s)` on a descriptor that the kernel has just opened.
From here on the object is its owner. -/
def adopt (world : World) (s : Int) : World × Object × List Event :=
  let (created, object) := (world.opened s).create s
  (created, object, [.custody (.acquired world.openings object)])

/-- `Socket::close`. The member is reset first, so a second call finds nothing to
close. -/
def close (world : World) (object : Object) (answer : Option Errno) :
    Except SocketError Unit × World × List Event :=
  if world.handle object = kInvalidSocket then (.ok (), world, [])
  else
    let (closed, events) := osClose (world.store object kInvalidSocket) (world.handle object)
    match answer with
    | none => (.ok (), closed, events)
    | some errno => (.error ⟨.closeFailed, "close() failed", some errno⟩, closed, events)

/-- `Socket::~Socket`: close what the object still has, and forget the object. The
answer of the system is dropped. -/
def destroy (world : World) (object : Object) (answer : Option Errno) : World × List Event :=
  let (_, closed, events) := close world object answer
  ({ closed with objects := Function.update closed.objects object none }, events)

/-- `Socket::Socket(Socket&& other)`: the new object takes the descriptor, and the
other one is left empty. -/
def moveConstruct (world : World) (other : Object) : World × Object × List Event :=
  let (created, object) := world.create (world.handle other)
  (created.store other kInvalidSocket, object, moves world (world.handle other) object)

/-- `Socket::operator=(Socket&& other)`: the old descriptor is closed before the new
one is taken. Assigning to itself does nothing. -/
def moveAssign (world : World) (object other : Object) (answer : Option Errno) :
    World × List Event :=
  if object = other then (world, [])
  else
    let (_, closed, events) := close world object answer
    ((closed.store object (closed.handle other)).store other kInvalidSocket,
      events ++ moves closed (closed.handle other) object)

/-- `Socket::release`: the number is handed to the program, and the object no longer
closes it. -/
def release (world : World) (object : Object) : Int × World × List Event :=
  let out := world.handle object
  match world.table out with
  | some opening =>
      (out, { world.store object kInvalidSocket with
          table := Function.update world.table out (some { opening with released := true }) },
        [.custody (.released opening.serial)])
  | none => (out, world.store object kInvalidSocket, [])

/-- `Socket::reset` to a descriptor that the kernel has just opened; `none` is the
default argument. -/
def reset (world : World) (object : Object) (s : Option Nat) (answer : Option Errno) :
    World × List Event :=
  match s with
  | none => (close world object answer).2
  | some s =>
      let (_, closed, events) := close (world.opened s) object answer
      (closed.store object s, events ++ [.custody (.acquired world.openings object)])

end Operations

/-- A call of the program. `closeReleased` is the program's own `::close` of a
descriptor that `release` has given to it. -/
inductive Call where
  | construct
  | adopt (s : Nat)
  | moveConstruct (other : Object)
  | moveAssign (object other : Object)
  | close (object : Object)
  | release (object : Object)
  | reset (object : Object) (s : Option Nat)
  | destroy (object : Object)
  | closeReleased (s : Int)
  | createTcpV4
  | bindAndListen (backlog : Int) (resolved : Except (Int × String) Nat)
  | acceptOne (listener : Object)
  | acceptAndRegister (listener : Object)

/-- What a step leaves open: the call of an idle program, and the answers to the
system calls and the poller call of this step, each with its `errno` if it fails. -/
structure Choice where
  call : Option Call := none
  close : Option Errno := none
  socket : Except Errno Nat := .error .eintr
  setsockopt : Option Errno := none
  bind : Option Errno := none
  listen : Option Errno := none
  errno : Errno := .eintr
  accept : AcceptAnswer := .failed .eagain
  flags : FcntlAnswers := {}
  upsert : Option PollError := none

/-- Where a call stands, with the objects alive in its scope. `left` counts the
resolved addresses behind the current one. `registering` says that `accept_one` was
called by `accept_and_register`. -/
inductive Place where
  | idle
  | creating
  | trying (left : Nat)
  | configuring (left : Nat) (sock : Object)
  | binding (left : Nat) (sock : Object)
  | discarding (left : Nat) (sock : Object)
  | listening (sock : Object)
  | wrapping (sock : Object)
  | storing (sock parameter : Object)
  | dropping (sock parameter listener : Object)
  | accepting (listener : Object) (registering : Bool)
  | connecting (accepted : Object)
  | registering (accepted conn : Object)
  | returning (source : Object) (locals : List Object) (registering : Bool)
  | unwinding (locals : List Object) (outcome : Outcome) (registering : Bool)

/-- The program between two statements. `held` are its objects; those of a call under
way belong to the place. -/
structure State where
  world : World := {}
  held : List Object := []
  place : Place := .idle

/-- The object is alive: it has been made and not yet destroyed. -/
def World.alive (world : World) (object : Object) : Bool := (world.objects object).isSome

/-- The program makes a call. Those that are one statement are done at once, the
others go on from a place of their own. -/
def beginCall (state : State) (choice : Choice) : Call → Option (State × List Event)
  | .construct =>
      let (world, object) := construct state.world
      some ({ state with world, held := object :: state.held }, [])
  | .adopt s =>
      let (world, object, events) := adopt state.world s
      some ({ state with world, held := object :: state.held }, events)
  | .moveConstruct other =>
      if state.world.alive other then
        let (world, object, events) := moveConstruct state.world other
        some ({ state with world, held := object :: state.held }, events)
      else none
  | .moveAssign object other =>
      if state.world.alive object && state.world.alive other then
        let (world, events) := moveAssign state.world object other choice.close
        some ({ state with world }, events)
      else none
  | .close object =>
      if state.world.alive object then
        let (result, world, events) := close state.world object choice.close
        some ({ state with world }, events ++ [.closeReturned result])
      else none
  | .release object =>
      if state.world.alive object then
        let (out, world, events) := release state.world object
        some ({ state with world }, events ++ [.releaseReturned out])
      else none
  | .reset object s =>
      if state.world.alive object then
        let (world, events) := reset state.world object s choice.close
        some ({ state with world }, events)
      else none
  | .destroy object =>
      if state.world.alive object then
        let (world, events) := destroy state.world object choice.close
        some ({ state with world, held := state.held.filter (· != object) }, events)
      else none
  | .closeReleased s =>
      match state.world.table s with
      | some ⟨_, true⟩ =>
          some ({ state with
            world := { state.world with table := Function.update state.world.table s none } }, [])
      | _ => none
  | .createTcpV4 => some ({ state with place := .creating }, [])
  | .bindAndListen backlog resolved =>
      if backlog ≤ 0 then
        some (state, [.returned (.listenerFailed ⟨.listenFailed, "backlog must be > 0", .zero⟩)])
      else
        match resolved with
        | .error (code, message) =>
            some (state, [.returned (.listenerFailed ⟨.resolveFailed, message, .resolver code⟩)])
        | .ok addresses => some ({ state with place := .trying addresses }, [])
  | .acceptOne listener =>
      if state.world.alive listener then
        some ({ state with place := .accepting listener false }, [])
      else none
  | .acceptAndRegister listener =>
      if state.world.alive listener then
        some ({ state with place := .accepting listener true }, [])
      else none

/-- A call has returned to the program, which now has the object in the result, if
there is one. -/
def State.finish (state : State) (outcome : Outcome) : State × List Event :=
  match outcome with
  | .socket object =>
      ({ state with held := object :: state.held, place := .idle }, [.returned outcome])
  | _ => ({ state with place := .idle }, [.returned outcome])

/-- A poller whose `upsert` answers as given and changes nothing when it fails. Any
poller is one of these in a single call. -/
def answering (answer : Option PollError) : Upsert Unit := fun _ _ _ =>
  match answer with
  | none => (.ok (), ())
  | some error => (.error error, ())

/-- One statement of a call. Between any two the call may take an error path, on which
its objects are destroyed. -/
def proceed (state : State) (choice : Choice) : Place → Option (State × List Event)
  | .idle =>
      match choice.call with
      | none => none
      | some call => beginCall state choice call
  | .creating =>
      match choice.socket with
      | .error errno =>
          some (state.finish (.socketFailed ⟨.createFailed, "socket() failed", some errno⟩))
      | .ok s =>
          let (world, temporary, events) := adopt state.world s
          some ({ state with world, place := .returning temporary [temporary] false }, events)
  | .trying 0 =>
      some (state.finish (.listenerFailed ⟨.bindFailed,
        "bind() failed for all resolved addresses", .errno choice.errno⟩))
  | .trying (left + 1) =>
      match choice.socket with
      | .error _ => some ({ state with place := .trying left }, [])
      | .ok s =>
          let (world, sock, events) := adopt state.world s
          some ({ state with world, place := .configuring left sock }, events)
  | .configuring left sock =>
      match choice.setsockopt with
      | some errno =>
          some ({ state with place := .unwinding [sock] (.listenerFailed ⟨.setSockOptFailed,
            "setsockopt(SO_REUSEADDR) failed", .errno errno⟩) false }, [])
      | none => some ({ state with place := .binding left sock }, [])
  | .binding left sock =>
      match choice.bind with
      | some _ =>
          let (_, world, events) := close state.world sock choice.close
          some ({ state with world, place := .discarding left sock }, events)
      | none => some ({ state with place := .listening sock }, [])
  | .discarding left sock =>
      let (world, events) := destroy state.world sock choice.close
      some ({ state with world, place := .trying left }, events)
  | .listening sock =>
      match choice.listen with
      | some errno =>
          some ({ state with place := .unwinding [sock] (.listenerFailed ⟨.listenFailed,
            "listen() failed", .errno errno⟩) false }, [])
      | none => some ({ state with place := .wrapping sock }, [])
  | .wrapping sock =>
      let (world, parameter, events) := moveConstruct state.world sock
      some ({ state with world, place := .storing sock parameter }, events)
  | .storing sock parameter =>
      let (world, listener, events) := moveConstruct state.world parameter
      some ({ state with world, place := .dropping sock parameter listener }, events)
  | .dropping sock parameter listener =>
      let (world, events) := destroy state.world parameter choice.close
      some ({ state with world, place := .returning listener [listener, sock] false }, events)
  | .accepting listener registering =>
      match acceptOne ⟨state.world.handle listener⟩ choice.accept with
      | .error error => some (state.finish (.acceptFailed error))
      | .ok socket =>
          let (world, temporary, events) := adopt state.world socket.nativeHandle
          some ({ state with world, place := .returning temporary [temporary] registering },
            events)
  | .connecting accepted =>
      let (world, conn, events) := moveConstruct state.world accepted
      some ({ state with world, place := .registering accepted conn }, events)
  | .registering accepted conn =>
      match (registerAccepted (answering choice.upsert) () ⟨state.world.handle conn⟩
          choice.flags).1 with
      | .error error =>
          some ({ state with place := .unwinding [conn, accepted] (.acceptFailed error) false }, [])
      | .ok _ => some ({ state with place := .returning conn [conn, accepted] false }, [])
  | .returning source locals registering =>
      let (world, value, events) := moveConstruct state.world source
      some ({ state with world, place := .unwinding locals (.socket value) registering }, events)
  | .unwinding (innermost :: rest) outcome registering =>
      let (world, events) := destroy state.world innermost choice.close
      some ({ state with world, place := .unwinding rest outcome registering }, events)
  | .unwinding [] (.socket accepted) true =>
      some ({ state with place := .connecting accepted }, [])
  | .unwinding [] outcome _ => some (state.finish outcome)

/-- Any program that uses these functions, in any order and with any answers of the
system. -/
def descriptors : System State Choice Event where
  step state choice := proceed state choice state.place

/-- The numbers that the kernel hands out in a step, as the answers of the calls say.
-/
def Choice.handedOut (choice : Choice) : List Nat :=
  (match choice.call with
    | some (.adopt s) | some (.reset _ (some s)) => [s]
    | _ => []) ++
  (match choice.socket with
    | .ok s => [s]
    | .error _ => []) ++
  (match choice.accept with
    | .accepted s => [s]
    | .failed _ => [])

/-- The kernel hands out only numbers that are not open. It may hand out one again as
soon as it is closed. -/
def HandsOutClosed (state : State) (choice : Choice) : Prop :=
  ∀ s ∈ choice.handedOut, state.world.table s = none

/-- The object is alive, and its descriptor is open and stems from this opening, not
from a later one of the same number. -/
def World.Owns (world : World) (object : Object) (serial : Nat) : Prop :=
  world.alive object = true ∧
    ∃ released, world.table (world.handle object) = some ⟨serial, released⟩

/-- The events of the ledger, in order. What calls return is no part of it. -/
def ledger (history : List Event) : List (Custody.Event Nat Object) :=
  history.filterMap fun event => match event with
    | .custody event => some event
    | _ => none

end TcpServer.Descriptors
