import TcpServer.FrameEncoder
import TcpServer.PrefixDecoder

/-!
# Agreement of the frame encoder and decoder

The decoder accepts exactly the buffers that begin with the wire form of a
payload within the cap. Both directions rest on the header: four bytes and the
length they declare determine each other. From this the decoder obtains the
laws of a prefix decoder, and the general results on incremental decoding apply.
-/

namespace TcpServer.FrameCodec

open FrameDecoder FrameEncoder PrefixDecoder

/-- A header written for a 32-bit length declares that length. A longer one would lose
its upper digits. -/
theorem length_field_declares (length : Nat) (small : length < 2 ^ 32) :
    ∃ b0 b1 b2 b3, lengthField length = [b0, b1, b2, b3] ∧ declaredLength b0 b1 b2 b3 = length := by
  refine ⟨_, _, _, _, rfl, ?_⟩
  have value : (UInt32.ofNat length).toNat = length := by
    rw [UInt32.toNat_ofNat', Nat.mod_eq_of_lt small]
  have masked (x : Nat) : x &&& 255 = x % 256 := Nat.and_two_pow_sub_one_eq_mod x 8
  simp [declaredLength, value, masked, Nat.shiftRight_eq_div_pow]
  omega

/-- Four bytes are the header of the length they declare. So a header can be told from
its length alone. -/
theorem declared_length_field (b0 b1 b2 b3 : Byte) :
    lengthField (declaredLength b0 b1 b2 b3) = [b0, b1, b2, b3] := by
  have first := b0.toNat_lt
  have second := b1.toNat_lt
  have third := b2.toNat_lt
  have fourth := b3.toNat_lt
  obtain ⟨c0, c1, c2, c3, written, declares⟩ :=
    length_field_declares _ (declared_length_bound b0 b1 b2 b3)
  have bound0 := c0.toNat_lt
  have bound1 := c1.toNat_lt
  have bound2 := c2.toNat_lt
  have bound3 := c3.toNat_lt
  unfold declaredLength at declares
  have same0 : c0 = b0 := UInt8.toNat_inj.mp (by omega)
  have same1 : c1 = b1 := UInt8.toNat_inj.mp (by omega)
  have same2 : c2 = b2 := UInt8.toNat_inj.mp (by omega)
  have same3 : c3 = b3 := UInt8.toNat_inj.mp (by omega)
  rw [written, same0, same1, same2, same3]

/-- The cap of the codec is a 32-bit number, so every payload within it has a header.
-/
theorem payload_cap_bound (maxPayloadBytes : UInt64) : payloadCap maxPayloadBytes < 2 ^ 32 := by
  unfold payloadCap
  omega

/-- A frame at the front of the buffer is decoded, whatever follows it, and nothing of
what follows is consumed. -/
theorem frame_completes (endian : Endian) (payload rest : List Byte) (maxPayloadBytes : UInt64)
    (fits : payload.length ≤ payloadCap maxPayloadBytes) :
    tryDecodeFrame (lp64 endian) (frame payload ++ rest) maxPayloadBytes =
      .ok { status := .complete, consumedBytes := 4 + payload.length, payload } := by
  have small := payload_cap_bound maxPayloadBytes
  obtain ⟨b0, b1, b2, b3, written, declares⟩ := length_field_declares payload.length (by omega)
  have shape : frame payload ++ rest = b0 :: b1 :: b2 :: b3 :: (payload ++ rest) := by
    simp [frame, written]
  rw [shape, try_decode_frame_header (lp64 endian) (lp64_wide endian), declares]
  simp [Nat.not_lt.mpr fits]

/-- A decoded frame stood at the front of the buffer, and its payload was within the
cap. Proof: by cases on the length of the header, of which only the full one
completes. -/
theorem complete_frame (endian : Endian) (buffer payload : List Byte) (maxPayloadBytes : UInt64)
    (consumed : Nat) (decoded : tryDecodeFrame (lp64 endian) buffer maxPayloadBytes =
      .ok { status := .complete, consumedBytes := consumed, payload }) :
    payload.length ≤ payloadCap maxPayloadBytes ∧ consumed = 4 + payload.length ∧
      ∃ rest, buffer = frame payload ++ rest := by
  match buffer with
  | [] | [_] | [_, _] | [_, _, _] =>
    rw [try_decode_frame_short _ _ _ (by simp)] at decoded
    simp at decoded
  | b0 :: b1 :: b2 :: b3 :: body =>
    rw [try_decode_frame_header (lp64 endian) (lp64_wide endian)] at decoded
    split at decoded
    · simp at decoded
    · split at decoded
      · simp at decoded
      · rename_i within present
        simp only [Except.ok.injEq, FrameDecodeResult.mk.injEq, true_and] at decoded
        obtain ⟨rfl, rfl⟩ := decoded
        have length : (body.take (declaredLength b0 b1 b2 b3)).length =
            declaredLength b0 b1 b2 b3 := by
          rw [List.length_take]
          omega
        refine ⟨by omega, by omega, body.drop (declaredLength b0 b1 b2 b3), ?_⟩
        simp [frame, length, declared_length_field]

/-- Decoding on a 64-bit host never faults: no assert fails, and nothing outside the
buffer is read. -/
theorem try_decode_frame_defined (endian : Endian) (buffer : List Byte) (maxPayloadBytes : UInt64) :
    ∃ result, tryDecodeFrame (lp64 endian) buffer maxPayloadBytes = .ok result := by
  match buffer with
  | [] | [_] | [_, _] | [_, _, _] => exact ⟨_, try_decode_frame_short _ _ _ (by simp)⟩
  | b0 :: b1 :: b2 :: b3 :: body =>
    exact ⟨_, try_decode_frame_header (lp64 endian) (lp64_wide endian) b0 b1 b2 b3 body _⟩

/-- An oversized length is declared by the first four bytes alone, so bytes that
arrive later do not change it. -/
theorem oversized_stable (endian : Endian) (buffer more : List Byte) (maxPayloadBytes : UInt64)
    (decoded : tryDecodeFrame (lp64 endian) buffer maxPayloadBytes =
      .ok { status := .oversizedLength }) :
    tryDecodeFrame (lp64 endian) (buffer ++ more) maxPayloadBytes =
      .ok { status := .oversizedLength } := by
  match buffer with
  | [] | [_] | [_, _] | [_, _, _] =>
    rw [try_decode_frame_short _ _ _ (by simp)] at decoded
    simp at decoded
  | b0 :: b1 :: b2 :: b3 :: body =>
    rw [try_decode_frame_header (lp64 endian) (lp64_wide endian)] at decoded
    rw [List.cons_append, List.cons_append, List.cons_append, List.cons_append,
      try_decode_frame_header (lp64 endian) (lp64_wide endian)]
    split at decoded
    · rename_i oversized
      simp [oversized]
    · split at decoded <;> simp at decoded

/-- Results other than `Complete` carry no bytes, and consume none. -/
theorem unfinished_result_empty (endian : Endian) (buffer : List Byte) (maxPayloadBytes : UInt64)
    (result : FrameDecodeResult)
    (decoded : tryDecodeFrame (lp64 endian) buffer maxPayloadBytes = .ok result)
    (unfinished : result.status ≠ .complete) :
    result = { status := result.status } := by
  match buffer with
  | [] | [_] | [_, _] | [_, _, _] =>
    rw [try_decode_frame_short _ _ _ (by simp)] at decoded
    cases decoded
    rfl
  | b0 :: b1 :: b2 :: b3 :: body =>
    rw [try_decode_frame_header (lp64 endian) (lp64_wide endian)] at decoded
    split at decoded
    · cases decoded
      rfl
    · split at decoded
      · cases decoded
        rfl
      · cases decoded
        exact False.elim (unfinished rfl)

/-- The verdict of a call, for the general theory of incremental decoding. A fault and
an oversized length are both rejections. -/
def verdictOf : Except Fault FrameDecodeResult → Verdict (List Byte)
  | .ok result =>
      match result.status with
      | .incomplete => .needMore
      | .complete => .accept result.consumedBytes result.payload
      | .oversizedLength => .reject
  | .error _ => .reject

/-- An accepting verdict is a `Complete` result, with the same payload and the same
number of bytes. -/
theorem verdict_accept {endian : Endian} {buffer payload : List Byte} {maxPayloadBytes : UInt64}
    {consumed : Nat}
    (verdict : verdictOf (tryDecodeFrame (lp64 endian) buffer maxPayloadBytes) =
      .accept consumed payload) :
    tryDecodeFrame (lp64 endian) buffer maxPayloadBytes =
      .ok { status := .complete, consumedBytes := consumed, payload } := by
  obtain ⟨⟨status, bytes, decoded⟩, defined⟩ :=
    try_decode_frame_defined endian buffer maxPayloadBytes
  rw [defined] at verdict ⊢
  cases status <;> simp_all [verdictOf]

/-- A verdict that asks for more is an `Incomplete` result, with no bytes to
consume and no payload. -/
theorem verdict_need_more {endian : Endian} {buffer : List Byte} {maxPayloadBytes : UInt64}
    (verdict : verdictOf (tryDecodeFrame (lp64 endian) buffer maxPayloadBytes) = .needMore) :
    tryDecodeFrame (lp64 endian) buffer maxPayloadBytes = .ok { status := .incomplete } := by
  obtain ⟨⟨status, bytes, decoded⟩, defined⟩ :=
    try_decode_frame_defined endian buffer maxPayloadBytes
  have incomplete : status = .incomplete := by
    rw [defined] at verdict
    cases status <;> simp_all [verdictOf]
  subst incomplete
  rw [defined]
  exact congrArg Except.ok (unfinished_result_empty endian buffer maxPayloadBytes _ defined nofun)

/-- A rejecting verdict is an `OversizedLength` result, since faults do not occur on a
64-bit host. -/
theorem verdict_reject {endian : Endian} {buffer : List Byte} {maxPayloadBytes : UInt64}
    (verdict : verdictOf (tryDecodeFrame (lp64 endian) buffer maxPayloadBytes) = .reject) :
    tryDecodeFrame (lp64 endian) buffer maxPayloadBytes = .ok { status := .oversizedLength } := by
  obtain ⟨⟨status, bytes, decoded⟩, defined⟩ :=
    try_decode_frame_defined endian buffer maxPayloadBytes
  have oversized : status = .oversizedLength := by
    rw [defined] at verdict
    cases status <;> simp_all [verdictOf]
  subst oversized
  rw [defined]
  exact congrArg Except.ok (unfinished_result_empty endian buffer maxPayloadBytes _ defined nofun)

/-- The frame decoder is a prefix decoder: its laws are the round trip of one
frame and the stability of an oversized header. -/
def frameDecoder (endian : Endian) (maxPayloadBytes : UInt64) : Decoder Byte (List Byte) where
  decode buffer := verdictOf (tryDecodeFrame (lp64 endian) buffer maxPayloadBytes)
  accept_bounds verdict := by
    obtain ⟨_, consumed, rest, shape⟩ := complete_frame _ _ _ _ _ (verdict_accept verdict)
    rw [shape, List.length_append, frame_length]
    omega
  accept_stable verdict more := by
    obtain ⟨fits, consumed, rest, shape⟩ := complete_frame _ _ _ _ _ (verdict_accept verdict)
    rw [shape, List.append_assoc, frame_completes endian _ _ maxPayloadBytes fits, consumed]
    rfl
  reject_stable verdict more := by
    rw [oversized_stable _ _ more _ (verdict_reject verdict)]
    rfl

/-- The general decoder accepts a frame within the cap, whatever follows it. -/
theorem frame_decoder_accepts (endian : Endian) (payload rest : List Byte)
    (maxPayloadBytes : UInt64) (fits : payload.length ≤ payloadCap maxPayloadBytes) :
    (frameDecoder endian maxPayloadBytes).decode (frame payload ++ rest) =
      .accept (4 + payload.length) payload := by
  change verdictOf _ = _
  rw [frame_completes endian payload rest maxPayloadBytes fits]
  rfl

/-- Parsing consecutive frames yields their payloads and leaves what follows. Proof:
by induction on the payloads. -/
theorem parse_frames (endian : Endian) (maxPayloadBytes : UInt64) (payloads : List (List Byte))
    (fits : ∀ payload ∈ payloads, payload.length ≤ payloadCap maxPayloadBytes)
    (rest : List Byte) :
    (frameDecoder endian maxPayloadBytes).parse (payloads.flatMap frame ++ rest) =
      ((frameDecoder endian maxPayloadBytes).parse rest).after payloads := by
  induction payloads with
  | nil => simp
  | cons payload others inductionHypothesis =>
    have accepted := frame_decoder_accepts endian payload (others.flatMap frame ++ rest)
      maxPayloadBytes (fits payload List.mem_cons_self)
    have behind : (frame payload ++ (others.flatMap frame ++ rest)).drop (4 + payload.length) =
        others.flatMap frame ++ rest := by
      rw [← frame_length payload]
      exact List.drop_left
    rw [List.flatMap_cons, List.append_assoc, parse_accept accepted, behind,
      inductionHypothesis (fun other member => fits other (List.mem_cons_of_mem payload member)),
      after_after]
    rfl

/-- The parsed values were frames within the cap: encoding them again and
appending the leftover input gives the parsed stream. -/
theorem parse_reencodes (endian : Endian) (maxPayloadBytes : UInt64) (buffer : List Byte) :
    let parsed := (frameDecoder endian maxPayloadBytes).parse buffer
    (∀ payload ∈ parsed.values, payload.length ≤ payloadCap maxPayloadBytes) ∧
      buffer = parsed.values.flatMap frame ++ parsed.rest := by
  induction buffer using Decoder.parse.induct (frameDecoder endian maxPayloadBytes) with
  | case1 buffer verdict => simp [parse_needMore verdict]
  | case2 buffer verdict => simp [parse_reject verdict]
  | case3 buffer consumed payload verdict inductionHypothesis =>
    obtain ⟨fits, length, rest, shape⟩ := complete_frame _ _ _ _ _ (verdict_accept verdict)
    have behind : buffer.drop consumed = rest := by
      rw [shape, length, ← frame_length payload]
      exact List.drop_left
    rw [behind] at inductionHypothesis
    obtain ⟨othersFit, others⟩ := inductionHypothesis
    rw [parse_accept verdict, behind]
    constructor
    · intro value member
      rcases List.mem_cons.mp member with rfl | later
      · exact fits
      · exact othersFit value later
    · simp only [Parsed.after, List.singleton_append, List.flatMap_cons, List.append_assoc]
      rw [← others]
      exact shape

end TcpServer.FrameCodec
