import TcpServer.FrameDecoder

/-!
# The frame encoder

`appendEncodedFrame` embeds the vector overload of `append_encoded_frame`. It
returns the result of the call together with the vector as the call leaves it,
so that what a refused payload does to the vector is part of the model. Vector
capacity is not modelled: reserving changes no element.

The encoder repeats the cap of the decoder in its own translation unit; the
model uses the one definition for both.
-/

namespace TcpServer.FrameEncoder

open FrameDecoder

/-- The one reason to refuse a payload. There is none to refuse an empty one. -/
inductive FrameEncodeErrorCode where
  | payloadTooLarge
deriving DecidableEq, Repr

/-- The error of encoding. Nothing was appended where it is returned. -/
structure FrameEncodeError where
  code : FrameEncodeErrorCode
  message : String
deriving DecidableEq, Repr

/-- The one error of the encoder, with its text. -/
def payloadTooLarge : FrameEncodeError :=
  { code := .payloadTooLarge, message := "payload exceeds configured max message size" }

/-- Append four bytes, the most significant first, whatever the byte order of the
host. -/
def pushBe32 (out : List Byte) (v : UInt32) : List Byte :=
  out ++ [((v >>> 24) &&& 0xFF).toUInt8] ++ [((v >>> 16) &&& 0xFF).toUInt8] ++
    [((v >>> 8) &&& 0xFF).toUInt8] ++ [(v &&& 0xFF).toUInt8]

/-- `append_encoded_frame`: the length in big-endian order and then the payload,
behind whatever the buffer holds. Nothing is appended for a payload above the limit.
-/
def appendEncodedFrame (out payload : List Byte) (maxPayloadBytes : UInt64) :
    Except Fault (Except FrameEncodeError Unit × List Byte) := do
  let cap := effectiveMaxPayload maxPayloadBytes
  if payload.length > cap.toNat then
    return (.error payloadTooLarge, out)
  let len := UInt32.ofNat payload.length
  let before := out.length
  let out := pushBe32 out len
  let out := out ++ payload
  check (out.length == before + kFrameLengthFieldBytes + payload.length)
  return (.ok (), out)

/-- Append one frame for each payload in order, up to the first refusal. What was
appended before it stays. -/
def appendEncodedFrames (out : List Byte) (maxPayloadBytes : UInt64) :
    List (List Byte) → Except Fault (Except FrameEncodeError Unit × List Byte)
  | [] => .ok (.ok (), out)
  | payload :: others => do
      let (result, out) ← appendEncodedFrame out payload maxPayloadBytes
      match result with
      | .error refused => return (.error refused, out)
      | .ok () => appendEncodedFrames out maxPayloadBytes others

/-- The four header bytes of a payload of the given length. A length that does not fit
is encoded as its low 32 bits. -/
def lengthField (length : Nat) : List Byte := pushBe32 [] (UInt32.ofNat length)

/-- The wire form of one payload: its length, and the payload as it is. -/
def frame (payload : List Byte) : List Byte := lengthField payload.length ++ payload

/-- Pushing a length appends its header to what is there. -/
theorem push_be32_append (out : List Byte) (v : UInt32) :
    pushBe32 out v = out ++ pushBe32 [] v := by
  simp [pushBe32]

/-- A header has four bytes. -/
theorem length_field_length (length : Nat) : (lengthField length).length = 4 := by
  simp [lengthField, pushBe32]

/-- A frame is four bytes longer than its payload. -/
theorem frame_length (payload : List Byte) : (frame payload).length = 4 + payload.length := by
  simp [frame, length_field_length]

/-- The encoder accepts exactly the payloads within the cap, appends one frame
for them and leaves the vector alone otherwise. The cap is below `2^32`, so the
length conversion does not truncate; its assert never fails. -/
theorem append_encoded_frame_exact (out payload : List Byte) (maxPayloadBytes : UInt64) :
    appendEncodedFrame out payload maxPayloadBytes =
      .ok (if payload.length ≤ payloadCap maxPayloadBytes then (.ok (), out ++ frame payload)
        else (.error payloadTooLarge, out)) := by
  by_cases fits : payload.length ≤ payloadCap maxPayloadBytes
  · have within : ¬ payload.length > (effectiveMaxPayload maxPayloadBytes).toNat := by
      rw [effective_max_payload_value]
      omega
    have grown : ((pushBe32 out (UInt32.ofNat payload.length) ++ payload).length ==
        out.length + 4 + payload.length) = true := by
      simp only [pushBe32, List.append_assoc, List.length_append, List.length_cons, List.length_nil,
        beq_iff_eq]
      omega
    simp only [appendEncodedFrame, kFrameLengthFieldBytes, within, fits, grown, check_true, bind,
      Except.bind, pure, Except.pure, ↓reduceIte]
    rw [push_be32_append, List.append_assoc]
    rfl
  · have above : payload.length > (effectiveMaxPayload maxPayloadBytes).toNat := by
      rw [effective_max_payload_value]
      omega
    simp [appendEncodedFrame, above, fits, pure, Except.pure]

/-- Payloads within the cap are all accepted, and the vector grows by their
frames in order. -/
theorem append_encoded_frames_exact (out : List Byte) (payloads : List (List Byte))
    (maxPayloadBytes : UInt64)
    (fits : ∀ payload ∈ payloads, payload.length ≤ payloadCap maxPayloadBytes) :
    appendEncodedFrames out maxPayloadBytes payloads =
      .ok (.ok (), out ++ payloads.flatMap frame) := by
  induction payloads generalizing out with
  | nil => simp [appendEncodedFrames]
  | cons payload others inductionHypothesis =>
    have first : payload.length ≤ payloadCap maxPayloadBytes := fits payload List.mem_cons_self
    have later := inductionHypothesis (out ++ frame payload)
      (fun other member => fits other (List.mem_cons_of_mem payload member))
    simp only [appendEncodedFrames, append_encoded_frame_exact, first, ↓reduceIte, bind,
      Except.bind]
    rw [later, List.append_assoc, List.flatMap_cons]

end TcpServer.FrameEncoder
