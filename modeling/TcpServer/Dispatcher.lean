import TcpServer.Platform

/-!
# Request dispatchers

A dispatcher maps the payload of a request to the payload of a reply, or to an
error. The echo dispatcher is the one that the repository implements. The worker
pool takes an arbitrary dispatcher, whose call may also throw.
-/

namespace TcpServer.Dispatcher

/-- The one way a dispatcher can fail by its own account. What it throws is caught by
the worker instead. -/
inductive DispatchErrorCode where
  | internal
deriving DecidableEq, Repr

/-- The error that a dispatcher returns, with a text for whoever logs it. The pool
stores it without looking at it. -/
structure DispatchError where
  code : DispatchErrorCode := .internal
  message : String
deriving DecidableEq, Repr

/-- `EchoDispatcher::dispatch`: the bytes of the request are the reply, and it never
fails. -/
def echoDispatch (requestPayload : List Byte) : Except DispatchError (List Byte) :=
  .ok requestPayload

end TcpServer.Dispatcher
