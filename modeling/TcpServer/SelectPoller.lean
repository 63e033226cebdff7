import Mathlib.Data.List.AList
import TcpServer.Connection

/-!
# The select poller

The interest map of `SelectPoller` and the two operations that change it. The
map of the source has unique keys and no order that any caller observes; an
association list with unique keys models it. Waiting reads the map and leaves it as
it is; it has a module of its own.
-/

namespace TcpServer

/-- The bit set `EventMask`. The operators of the source combine masks bit by bit, so
that any byte can arise, and three of its bits have a meaning. -/
structure EventMask where
  bits : UInt8
deriving DecidableEq, Repr

namespace EventMask

/-- `EventMask::None`: a socket is registered, and nothing is asked of it. It still
keeps its entry in the map. -/
def none : EventMask := ⟨0⟩
/-- `EventMask::Read`, the lowest bit: the socket goes into the set of those to be
watched for reading. -/
def read : EventMask := ⟨1⟩
/-- `EventMask::Write`, the second bit: the socket goes into the set of those to be
watched for writing. -/
def write : EventMask := ⟨2⟩
/-- `EventMask::Error`, the third bit: the socket goes into the set of those to be
watched for exceptional conditions. -/
def error : EventMask := ⟨4⟩

/-- `operator|` of two masks: the bits of either one. -/
instance : OrOp EventMask := ⟨fun a b => ⟨a.bits ||| b.bits⟩⟩

/-- `operator&` of two masks: the bits that both have. -/
instance : AndOp EventMask := ⟨fun a b => ⟨a.bits &&& b.bits⟩⟩

/-- `(mask & bit) != EventMask::None`: whether the mask has the bit. The poller has a
function for it, the event loops spell it out. -/
def has (mask bit : EventMask) : Bool := (mask &&& bit) != none

end EventMask

/-- The error of a poller operation: a text, and the number that the system reported,
or zero where none was involved. -/
structure PollError where
  message : String
  nativeError : Int
deriving DecidableEq, Repr

/-- A select poller is its interest map, from native handles to masks. The constructor
leaves it empty, and no call of the operating system keeps any of it. -/
structure SelectPoller where
  interest : AList (fun _ : Int => EventMask) := ∅

namespace SelectPoller

/-- Register a socket, or change the mask of a registered one. Only the invalid socket
is refused; a mask without bits is taken, and so is any other descriptor. -/
def upsert (poller : SelectPoller) (socket : Int) (interest : EventMask) :
    Except PollError Unit × SelectPoller :=
  if socket = kInvalidSocket then (.error ⟨"invalid socket", 0⟩, poller)
  else (.ok (), { interest := poller.interest.insert socket interest })

/-- Forget a socket. Erasing one that is not registered is no error, so the event loop
may erase before it closes without asking. -/
def erase (poller : SelectPoller) (socket : Int) : Except PollError Unit × SelectPoller :=
  (.ok (), { interest := poller.interest.erase socket })

end SelectPoller

end TcpServer
