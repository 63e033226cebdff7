import TcpServer.FrameCodec
import TcpServer.Outbound

/-!
# The limits of the two directions

The encoder and the decoder take their limits separately. What the encoder
appends under its limit is a frame that every reader loads with the length of
the payload, and that the decoder takes or refuses by comparing this length with
its own limit. What the encoder refuses leaves no byte behind.
-/

namespace TcpServer.CodecLimits

open FrameDecoder FrameEncoder FrameCodec Outbound

/-- The verdict on a lone frame: its payload, or that its length is over the limit.
Nothing is incomplete about it. -/
def frameVerdict (payload : List Byte) (maxPayloadBytes : UInt64) : FrameDecodeResult :=
  if payload.length ≤ maxPayloadBytes.toNat then
    { status := .complete, consumedBytes := kFrameLengthFieldBytes + payload.length, payload }
  else { status := .oversizedLength }

/-- What the encoder promises of the vector `before`, which the call leaves as
`after` together with its result. -/
structure AppendsFrame (endian : Endian) (payload : List Byte)
    (encoderMax decoderMax : UInt64) (before : List Byte)
    (result : Except FrameEncodeError Unit) (after : List Byte) : Prop where
  admits : result = .ok () ↔ payload.length ≤ min encoderMax.toNat (2 ^ 32 - 1)
  appends : result = .ok () → ∃ added, after = before ++ added ∧
    added.length = kFrameLengthFieldBytes + payload.length ∧
    (∃ value, readU32Be endian added = .ok value ∧ value.toNat = payload.length) ∧
    tryDecodeFrame (lp64 endian) added decoderMax = .ok (frameVerdict payload decoderMax)
  refuses : result ≠ .ok () → after = before

/-- Every reader loads the length of a payload from the header of its frame. -/
theorem frame_header_value (endian : Endian) (payload : List Byte)
    (small : payload.length < 2 ^ 32) :
    ∃ value, readU32Be endian (frame payload) = .ok value ∧ value.toNat = payload.length := by
  obtain ⟨b0, b1, b2, b3, written, declares⟩ := length_field_declares payload.length small
  obtain ⟨value, loaded, denotes⟩ := read_u32_be_value endian b0 b1 b2 b3 payload
  refine ⟨value, ?_, denotes.trans declares⟩
  rw [frame, written]
  exact loaded

/-- A lone frame is decided by comparing its payload's length with the limit. -/
theorem lone_frame_verdict (endian : Endian) (payload : List Byte) (maxPayloadBytes : UInt64)
    (small : payload.length < 2 ^ 32) :
    tryDecodeFrame (lp64 endian) (frame payload) maxPayloadBytes =
      .ok (frameVerdict payload maxPayloadBytes) := by
  unfold frameVerdict
  by_cases within : payload.length ≤ maxPayloadBytes.toNat
  · have fits : payload.length ≤ payloadCap maxPayloadBytes := by
      unfold payloadCap
      omega
    have completes := frame_completes endian payload [] maxPayloadBytes fits
    rw [List.append_nil] at completes
    rw [if_pos within]
    exact completes
  · obtain ⟨b0, b1, b2, b3, written, declares⟩ := length_field_declares payload.length small
    have oversized : payloadCap maxPayloadBytes < declaredLength b0 b1 b2 b3 := by
      rw [declares]
      unfold payloadCap
      omega
    have decoded := try_decode_frame_header (lp64 endian) (lp64_wide endian) b0 b1 b2 b3 payload
      maxPayloadBytes
    rw [if_pos oversized] at decoded
    rw [if_neg within, frame, written]
    exact decoded

/-- One call of the encoder on a vector. Proof: a payload within the cap fits into 32
bits, so its header is exact and the decoder's limit decides alone; above the cap
nothing is appended. -/
theorem append_encoded_frame_appends (endian : Endian) (before payload : List Byte)
    (encoderMax decoderMax : UInt64) :
    ∃ result after, appendEncodedFrame before payload encoderMax = .ok (result, after) ∧
      AppendsFrame endian payload encoderMax decoderMax before result after := by
  have exact := append_encoded_frame_exact before payload encoderMax
  have cap : payloadCap encoderMax = min encoderMax.toNat (2 ^ 32 - 1) := rfl
  by_cases fits : payload.length ≤ payloadCap encoderMax
  · have small : payload.length < 2 ^ 32 := by
      have bound := payload_cap_bound encoderMax
      omega
    rw [if_pos fits] at exact
    refine ⟨.ok (), before ++ frame payload, exact, ?_, ?_, ?_⟩
    · exact ⟨fun _ => cap ▸ fits, fun _ => rfl⟩
    · intro _
      exact ⟨frame payload, rfl, frame_length payload, frame_header_value endian payload small,
        lone_frame_verdict endian payload decoderMax small⟩
    · intro failed
      exact absurd rfl failed
  · rw [if_neg fits] at exact
    refine ⟨.error payloadTooLarge, before, exact, ?_, ?_, ?_⟩
    · constructor
      · intro accepted
        cases accepted
      · intro within
        exact absurd within fits
    · intro accepted
      cases accepted
    · intro _
      rfl

/-- The limits agree and the encoder is atomic, on the vector and on the write
buffer of a connection, of which nothing else changes. -/
theorem limits_agree (endian : Endian) (out payload : List Byte) (conn : Connection)
    (encoderMax decoderMax : UInt64) :
    (∃ result after, appendEncodedFrame out payload encoderMax = .ok (result, after) ∧
      AppendsFrame endian payload encoderMax decoderMax out result after) ∧
    (∃ result writeBuf, appendEncodedFrameTo conn payload encoderMax =
        .ok (result, { conn with writeBuf }) ∧
      AppendsFrame endian payload encoderMax decoderMax conn.writeBuf result writeBuf) := by
  constructor
  · exact append_encoded_frame_appends endian out payload encoderMax decoderMax
  · obtain ⟨result, writeBuf, appended, kept⟩ :=
      append_encoded_frame_appends endian conn.writeBuf payload encoderMax decoderMax
    refine ⟨result, writeBuf, ?_, kept⟩
    simp only [appendEncodedFrameTo, appended, bind, Except.bind, pure, Except.pure]

end TcpServer.CodecLimits
