import TcpServer.EventLoop
import TcpServer.WireForm

/-!
# The echo client

`client_worker` of the end-to-end benchmark: in each round it encodes its payload,
sends the frame, and receives until a whole frame has come back, which it compares
with the payload. Its socket blocks. Each pass through a loop of `send_all` or
`recv_one_echo_frame` makes one system call and is one step; so is the head of the
loop over the rounds. Unlike the server's, these calls are not repeated when they
are interrupted.
-/

namespace TcpServer.EchoClient

open FrameDecoder FrameEncoder SocketIo
open EventLoop (kMaxPayload)

/-- The `std::abort` calls of the client. Each ends the process, so no run of a sound
client reaches one. -/
inductive Abort where
  | encodeFailed (error : FrameEncodeError)
  | sendFailed
  | recvFailed
  | sizeDiffers
  | bytesDiffer
  | notIncomplete
  | accumulatorFull
deriving DecidableEq, Repr

/-- Where `client_worker` stands. `wireOut` and `off` are those of `send_all`, `acc`
is what `recv_one_echo_frame` has received, the first `total` bytes of its vector. -/
inductive Phase where
  | connecting
  | encoding (round : Nat)
  | sending (round : Nat) (wireOut : List Byte) (off : Nat)
  | receiving (round : Nat) (acc : List Byte)
  | finished
  | aborted (cause : Abort)
  | faulted (fault : Fault)
deriving DecidableEq, Repr

/-- A client of the benchmark: what it sends in each round, how many rounds it makes,
and where it is. -/
structure Client where
  payload : List Byte
  roundTrips : Nat
  phase : Phase := .connecting
deriving DecidableEq, Repr

/-- The bytes `(static_cast<int>(i) ^ client_id) & 0xFF`. Only the low byte of the
client's number matters for them. -/
def makePayload (payloadBytes : Nat) (clientId : Int32) : List Byte :=
  (List.range payloadBytes).map fun i => ((Int32.ofNat i ^^^ clientId) &&& 0xFF).toUInt32.toUInt8

/-- `client_worker` before it connects, with the payload that it will send in every
round. -/
def clientWorker (clientId : Int32) (roundTrips payloadBytes : Nat) : Client :=
  { payload := makePayload payloadBytes clientId, roundTrips }

/-- `acc.size()`, which has room for the frame of a round and for more. -/
def accSize (client : Client) : Nat := 65536 + client.payload.length

/-- `while (off < len)`: behind the last byte the client waits for its echo. -/
def sendLoop (round : Nat) (wireOut : List Byte) (off : Nat) : Phase :=
  if off < wireOut.length then .sending round wireOut off else .receiving round []

/-- The head of the loop over the rounds: encode the payload once more, or finish
behind the last round. -/
def encodePass (client : Client) (round : Nat) : Phase :=
  if round < client.roundTrips then
    match appendEncodedFrame [] client.payload kMaxPayload with
    | .error fault => .faulted fault
    | .ok (.error error, _) => .aborted (.encodeFailed error)
    | .ok (.ok (), wireOut) => sendLoop round wireOut 0
  else .finished

/-- One pass through the loop of `send_all`; `none` when the answer breaks the
contract of the call. -/
def sendPass (round : Nat) (wireOut : List Byte) (off : Nat) : SendAnswer → Option Phase
  | .failed _ => some (.aborted .sendFailed)
  | .sent count =>
      if count = 0 then some (.aborted .sendFailed)
      else if count ≤ wireOut.length - off then some (sendLoop round wireOut (off + count))
      else none

/-- The tests of `recv_one_echo_frame` behind its system call: a full frame must be
the payload, and anything else is waited for or ends the process. -/
def checkFrame (endian : Endian) (client : Client) (round : Nat) (acc : List Byte) : Phase :=
  match tryDecodeFrame (lp64 endian) acc kMaxPayload with
  | .error fault => .faulted fault
  | .ok dec =>
      match dec.status with
      | .complete =>
          if dec.payload.length ≠ client.payload.length then .aborted .sizeDiffers
          else if dec.payload ≠ client.payload then .aborted .bytesDiffer
          else .encoding (round + 1)
      | .oversizedLength => .aborted .notIncomplete
      | .incomplete =>
          if acc.length ≥ accSize client then .aborted .accumulatorFull else .receiving round acc

/-- One pass through the loop of `recv_one_echo_frame`; `none` when the answer
breaks the contract of the call. -/
def recvPass (endian : Endian) (client : Client) (round : Nat) (acc : List Byte) :
    RecvAnswer → Option Phase
  | .failed _ => some (.aborted .recvFailed)
  | .received bytes =>
      if bytes = [] then some (.aborted .recvFailed)
      else if bytes.length ≤ accSize client - acc.length then
        some (checkFrame endian client round (acc ++ bytes))
      else none

/-- What the kernel has taken of the frame of this round. While the client waits for
its echo that is all of it. -/
def Client.sent (client : Client) : List Byte :=
  match client.phase with
  | .sending _ wireOut off => wireOut.take off
  | .receiving _ _ => frame client.payload
  | _ => []

/-- What has come back in this round. A client that is sending has not looked yet. -/
def Client.got (client : Client) : List Byte :=
  match client.phase with
  | .receiving _ acc => acc
  | _ => []

/-- The rounds that are over, with their echoes checked. -/
def Client.completed (client : Client) : Nat :=
  match client.phase with
  | .encoding round | .sending round _ _ | .receiving round _ => round
  | .finished => client.roundTrips
  | _ => 0

/-- A client that nothing has gone wrong with so far: its payload fits, and what has
come back is the front of the frame it expects. -/
structure Client.Sound (client : Client) : Prop where
  fits : client.payload.length ≤ payloadCap kMaxPayload
  standing : match client.phase with
    | .connecting | .finished => True
    | .encoding round => round ≤ client.roundTrips
    | .sending round wireOut off => round < client.roundTrips ∧ wireOut = frame client.payload ∧
        off < wireOut.length
    | .receiving round acc => round < client.roundTrips ∧ acc.length < (frame client.payload).length
    | .aborted _ | .faulted _ => False

section Passes

variable {client : Client} {round : Nat}

/-- A payload within the limit is encoded and its frame is sent from the start. -/
theorem encode_pass_more (fits : client.payload.length ≤ payloadCap kMaxPayload)
    (more : round < client.roundTrips) :
    encodePass client round = .sending round (frame client.payload) 0 := by
  have nonempty : 0 < (frame client.payload).length := by
    rw [frame_length]
    omega
  simp only [encodePass, more, append_encoded_frame_exact, fits, ↓reduceIte, List.nil_append,
    sendLoop, nonempty]

/-- Part of a frame is not compared yet: more is received. -/
theorem check_frame_part (endian : Endian) {acc : List Byte}
    (fits : client.payload.length ≤ payloadCap kMaxPayload)
    (begins : acc <+: frame client.payload) (proper : acc ≠ frame client.payload) :
    checkFrame endian client round acc = .receiving round acc := by
  obtain ⟨result, decoded⟩ := FrameCodec.try_decode_frame_defined endian acc kMaxPayload
  have incomplete := WireForm.proper_prefix_incomplete decoded fits begins proper
  have short := begins.length_le
  rw [frame_length] at short
  have room : ¬ acc.length ≥ accSize client := by
    unfold accSize
    omega
  simp only [checkFrame, decoded, incomplete, room, ↓reduceIte]

/-- The whole frame passes the comparison. -/
theorem check_frame_whole (endian : Endian)
    (fits : client.payload.length ≤ payloadCap kMaxPayload) :
    checkFrame endian client round (frame client.payload) = .encoding (round + 1) := by
  have decoded := FrameCodec.frame_completes endian client.payload [] kMaxPayload fits
  rw [List.append_nil] at decoded
  simp [checkFrame, decoded]

end Passes

end TcpServer.EchoClient
