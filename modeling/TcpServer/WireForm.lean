import TcpServer.FrameCodec

/-!
# Wire forms

What the decoder took from a buffer can be encoded again. `Drained` is repeated
decoding as a caller of `try_decode_frame` performs it, dropping the consumed
bytes after each complete frame; encoding the payloads and appending the residual
restores the buffer. The bytes of a sequence of frames therefore determine the
payloads, and a buffer is incomplete exactly when it could still become a frame.
-/

namespace TcpServer.WireForm

open FrameDecoder FrameEncoder FrameCodec PrefixDecoder

/-- Repeated decoding from the front until a call does not complete a frame, as a
reader of a buffer does it. -/
inductive Drained (host : Host) (maxPayloadBytes : UInt64) :
    List Byte → List (List Byte) → List Byte → Prop where
  | unfinished {buffer : List Byte} {result : FrameDecodeResult}
      (decoded : tryDecodeFrame host buffer maxPayloadBytes = .ok result)
      (stopped : result.status ≠ .complete) : Drained host maxPayloadBytes buffer [] buffer
  | complete {buffer residual : List Byte} {result : FrameDecodeResult}
      {payloads : List (List Byte)}
      (decoded : tryDecodeFrame host buffer maxPayloadBytes = .ok result)
      (finished : result.status = .complete)
      (others : Drained host maxPayloadBytes (buffer.drop result.consumedBytes) payloads residual) :
      Drained host maxPayloadBytes buffer (result.payload :: payloads) residual

/-- A result is unfinished exactly when its verdict does not accept. -/
theorem unfinished_verdict {endian : Endian} {buffer : List Byte} {maxPayloadBytes : UInt64}
    {result : FrameDecodeResult}
    (decoded : tryDecodeFrame (lp64 endian) buffer maxPayloadBytes = .ok result)
    (stopped : result.status ≠ .complete) :
    (frameDecoder endian maxPayloadBytes).decode buffer = .needMore ∨
      (frameDecoder endian maxPayloadBytes).decode buffer = .reject := by
  change verdictOf _ = _ ∨ verdictOf _ = _
  rw [decoded]
  obtain ⟨status, consumed, payload⟩ := result
  cases status with
  | incomplete => exact Or.inl rfl
  | oversizedLength => exact Or.inr rfl
  | complete => exact False.elim (stopped rfl)

/-- Repeated decoding computes the parse of the buffer. -/
theorem drained_parse {endian : Endian} {maxPayloadBytes : UInt64} {buffer residual : List Byte}
    {payloads : List (List Byte)}
    (drained : Drained (lp64 endian) maxPayloadBytes buffer payloads residual) :
    payloads = ((frameDecoder endian maxPayloadBytes).parse buffer).values ∧
      residual = ((frameDecoder endian maxPayloadBytes).parse buffer).rest := by
  induction drained with
  | unfinished decoded stopped =>
    cases unfinished_verdict decoded stopped with
    | inl needMore => simp [parse_needMore needMore]
    | inr reject => simp [parse_reject reject]
  | @complete buffer _ result payloads decoded finished others inductionHypothesis =>
    have accepted : (frameDecoder endian maxPayloadBytes).decode buffer =
        .accept result.consumedBytes result.payload := by
      change verdictOf _ = _
      rw [decoded]
      simp [verdictOf, finished]
    rw [parse_accept accepted]
    exact ⟨congrArg (result.payload :: ·) inductionHypothesis.1, inductionHypothesis.2⟩

/-- Repeated decoding ends on every buffer: a complete frame consumes its header. -/
theorem drained_exists (endian : Endian) (maxPayloadBytes : UInt64) (buffer : List Byte) :
    ∃ payloads residual, Drained (lp64 endian) maxPayloadBytes buffer payloads residual := by
  induction buffer using Decoder.parse.induct (frameDecoder endian maxPayloadBytes) with
  | case1 buffer verdict =>
    obtain ⟨result, decoded⟩ := try_decode_frame_defined endian buffer maxPayloadBytes
    refine ⟨[], buffer, .unfinished decoded ?_⟩
    intro finished
    change verdictOf _ = _ at verdict
    simp [decoded, verdictOf, finished] at verdict
  | case2 buffer verdict => exact ⟨[], buffer, .unfinished (verdict_reject verdict) (by simp)⟩
  | case3 buffer consumed payload verdict inductionHypothesis =>
    obtain ⟨payloads, residual, others⟩ := inductionHypothesis
    exact ⟨payload :: payloads, residual, .complete (verdict_accept verdict) rfl others⟩

/-- Encoding what was decoded, and appending the residual, gives the buffer back. -/
theorem drained_reencodes {endian : Endian} {maxPayloadBytes : UInt64}
    {buffer residual : List Byte} {payloads : List (List Byte)}
    (drained : Drained (lp64 endian) maxPayloadBytes buffer payloads residual) :
    (∀ payload ∈ payloads, payload.length ≤ payloadCap maxPayloadBytes) ∧
      appendEncodedFrames [] maxPayloadBytes payloads = .ok (.ok (), payloads.flatMap frame) ∧
      payloads.flatMap frame ++ residual = buffer := by
  obtain ⟨rfl, rfl⟩ := drained_parse drained
  obtain ⟨fits, shape⟩ := parse_reencodes endian maxPayloadBytes buffer
  refine ⟨fits, ?_, shape.symm⟩
  simpa using append_encoded_frames_exact [] _ maxPayloadBytes fits

/-- Frames at the front of one buffer carry the same payload. -/
theorem frame_front_unique {first second behindFirst behindSecond : List Byte}
    (firstFits : first.length < 2 ^ 32) (secondFits : second.length < 2 ^ 32)
    (same : frame first ++ behindFirst = frame second ++ behindSecond) :
    first = second ∧ behindFirst = behindSecond := by
  have unlimited : payloadCap (UInt64.ofNat (2 ^ 32)) = 2 ^ 32 - 1 := by decide
  have decodedFirst := frame_completes .little first behindFirst (UInt64.ofNat (2 ^ 32)) (by omega)
  have decodedSecond := frame_completes .little second behindSecond (UInt64.ofNat (2 ^ 32))
    (by omega)
  have payloads : first = second := by
    rw [same, decodedSecond] at decodedFirst
    injection decodedFirst with results
    injection results with _ _ payload
    exact payload.symm
  subst payloads
  exact ⟨rfl, List.append_cancel_left same⟩

/-- The wire form of one payload list begins that of another only if the payloads do. -/
theorem wire_form_prefix (first second : List (List Byte))
    (firstFits : ∀ payload ∈ first, payload.length < 2 ^ 32)
    (secondFits : ∀ payload ∈ second, payload.length < 2 ^ 32)
    (begins : first.flatMap frame <+: second.flatMap frame) : first <+: second := by
  induction first generalizing second with
  | nil => exact List.nil_prefix
  | cons payload others inductionHypothesis =>
    obtain ⟨behind, shape⟩ := begins
    cases second with
    | nil =>
      have length := congrArg List.length shape
      simp [frame_length] at length
    | cons candidate remaining =>
      rw [List.flatMap_cons, List.flatMap_cons, List.append_assoc] at shape
      obtain ⟨rfl, tails⟩ := frame_front_unique (firstFits payload List.mem_cons_self)
        (secondFits candidate List.mem_cons_self) shape
      have later := inductionHypothesis remaining
        (fun other member => firstFits other (List.mem_cons_of_mem payload member))
        (fun other member => secondFits other (List.mem_cons_of_mem payload member))
        ⟨behind, tails⟩
      exact List.cons_prefix_cons.mpr ⟨rfl, later⟩

/-- Payloads that were all accepted are within the cap, and the vector is their wire form. -/
theorem accepted_wire (out : List Byte) (payloads : List (List Byte)) (maxPayloadBytes : UInt64)
    (wire : List Byte)
    (encoded : appendEncodedFrames out maxPayloadBytes payloads = .ok (.ok (), wire)) :
    (∀ payload ∈ payloads, payload.length ≤ payloadCap maxPayloadBytes) ∧
      wire = out ++ payloads.flatMap frame := by
  have fits : ∀ payload ∈ payloads, payload.length ≤ payloadCap maxPayloadBytes := by
    induction payloads generalizing out with
    | nil => intro payload member; cases member
    | cons first others inductionHypothesis =>
      by_cases within : first.length ≤ payloadCap maxPayloadBytes
      · simp only [appendEncodedFrames, append_encoded_frame_exact, within, ↓reduceIte, bind,
          Except.bind] at encoded
        intro payload member
        cases List.mem_cons.mp member with
        | inl head => exact head ▸ within
        | inr later => exact inductionHypothesis _ encoded payload later
      · simp [appendEncodedFrames, append_encoded_frame_exact, within, bind, Except.bind, pure,
          Except.pure] at encoded
  refine ⟨fits, ?_⟩
  rw [append_encoded_frames_exact out payloads maxPayloadBytes fits] at encoded
  injection encoded with results
  exact (congrArg Prod.snd results).symm

/-- Encode undoes decode. Repeated decoding of a buffer has exactly one outcome;
every payload of it is accepted by the encoder under the same limit, and encoding
them all and appending the residual restores the buffer. The wire form of a
payload list is unique, and begins another wire form only if the payloads do. -/
theorem encode_undoes_decode (endian : Endian) (maxPayloadBytes : UInt64) :
    (∀ buffer, ∃ payloads residual, Drained (lp64 endian) maxPayloadBytes buffer payloads residual ∧
      (∀ others rest, Drained (lp64 endian) maxPayloadBytes buffer others rest →
        others = payloads ∧ rest = residual) ∧
      (∀ payload ∈ payloads, ∀ out, ∃ grown,
        appendEncodedFrame out payload maxPayloadBytes = .ok (.ok (), grown)) ∧
      ∃ wire, appendEncodedFrames [] maxPayloadBytes payloads = .ok (.ok (), wire) ∧
        wire ++ residual = buffer) ∧
    (∀ payloads : List (List Byte), (∀ payload ∈ payloads, payload.length ≤ 2 ^ 32 - 1) →
      ∃ limit wire, appendEncodedFrames [] limit payloads = .ok (.ok (), wire)) ∧
    (∀ first second limit otherLimit wire otherWire,
      appendEncodedFrames [] limit first = .ok (.ok (), wire) →
      appendEncodedFrames [] otherLimit second = .ok (.ok (), otherWire) →
      (wire = otherWire → first = second) ∧ (wire <+: otherWire → first <+: second)) := by
  refine ⟨?_, ?_, ?_⟩
  · intro buffer
    obtain ⟨payloads, residual, drained⟩ := drained_exists endian maxPayloadBytes buffer
    obtain ⟨fits, encoded, restored⟩ := drained_reencodes drained
    refine ⟨payloads, residual, drained, ?_, ?_, _, encoded, restored⟩
    · intro others rest again
      obtain ⟨samePayloads, sameResidual⟩ := drained_parse drained
      obtain ⟨otherPayloads, otherResidual⟩ := drained_parse again
      exact ⟨otherPayloads.trans samePayloads.symm, otherResidual.trans sameResidual.symm⟩
    · intro payload member out
      exact ⟨out ++ frame payload, by simp [append_encoded_frame_exact, fits payload member]⟩
  · intro payloads small
    have unlimited : payloadCap (UInt64.ofNat (2 ^ 32)) = 2 ^ 32 - 1 := by decide
    refine ⟨UInt64.ofNat (2 ^ 32), _, append_encoded_frames_exact [] payloads _ ?_⟩
    rwa [unlimited]
  · intro first second limit otherLimit wire otherWire encoded otherEncoded
    obtain ⟨firstFits, firstShape⟩ := accepted_wire [] first limit wire encoded
    obtain ⟨secondFits, secondShape⟩ := accepted_wire [] second otherLimit otherWire otherEncoded
    rw [List.nil_append] at firstShape secondShape
    subst firstShape secondShape
    have firstSmall : ∀ payload ∈ first, payload.length < 2 ^ 32 := fun payload member =>
      Nat.lt_of_le_of_lt (firstFits payload member) (payload_cap_bound limit)
    have secondSmall : ∀ payload ∈ second, payload.length < 2 ^ 32 := fun payload member =>
      Nat.lt_of_le_of_lt (secondFits payload member) (payload_cap_bound otherLimit)
    constructor
    · intro same
      have forward := wire_form_prefix first second firstSmall secondSmall
        (same ▸ List.prefix_refl _)
      have backward := wire_form_prefix second first secondSmall firstSmall
        (same ▸ List.prefix_refl _)
      exact forward.eq_of_length (Nat.le_antisymm forward.length_le backward.length_le)
    · exact wire_form_prefix first second firstSmall secondSmall

/-- The verdict of an incomplete call, in terms of the declared length. -/
theorem incomplete_cases {endian : Endian} {buffer : List Byte} {maxPayloadBytes : UInt64}
    {result : FrameDecodeResult}
    (decoded : tryDecodeFrame (lp64 endian) buffer maxPayloadBytes = .ok result)
    (incomplete : result.status = .incomplete) :
    buffer.length < 4 ∨ ∃ b0 b1 b2 b3 body, buffer = b0 :: b1 :: b2 :: b3 :: body ∧
      declaredLength b0 b1 b2 b3 ≤ payloadCap maxPayloadBytes ∧
      body.length < declaredLength b0 b1 b2 b3 := by
  match buffer with
  | [] | [_] | [_, _] | [_, _, _] => exact Or.inl (by simp)
  | b0 :: b1 :: b2 :: b3 :: body =>
    rw [try_decode_frame_header (lp64 endian) (lp64_wide endian)] at decoded
    injection decoded with outcome
    right
    refine ⟨b0, b1, b2, b3, body, rfl, ?_⟩
    by_cases oversized : payloadCap maxPayloadBytes < declaredLength b0 b1 b2 b3
    · rw [if_pos oversized] at outcome
      simp [← outcome] at incomplete
    · by_cases missing : body.length < declaredLength b0 b1 b2 b3
      · exact ⟨Nat.not_lt.mp oversized, missing⟩
      · rw [if_neg oversized, if_neg missing] at outcome
        simp [← outcome] at incomplete

/-- A buffer behind a complete header that still lacks payload bytes is the
beginning of a frame: any bytes may be supplied for the missing ones. -/
theorem incomplete_begins_frame (b0 b1 b2 b3 : Byte) (body : List Byte)
    (missing : body.length < declaredLength b0 b1 b2 b3) :
    ∃ payload, payload.length = declaredLength b0 b1 b2 b3 ∧
      b0 :: b1 :: b2 :: b3 :: body <+: frame payload ∧
      b0 :: b1 :: b2 :: b3 :: body ≠ frame payload := by
  have filled : (body ++ List.replicate (declaredLength b0 b1 b2 b3 - body.length) 0).length =
      declaredLength b0 b1 b2 b3 := by
    rw [List.length_append, List.length_replicate]
    omega
  refine ⟨_, filled, ?_, ?_⟩
  · refine ⟨List.replicate (declaredLength b0 b1 b2 b3 - body.length) 0, ?_⟩
    simp [frame, filled, declared_length_field]
  · intro same
    have length := congrArg List.length same
    rw [frame_length, filled] at length
    simp only [List.length_cons] at length
    omega

/-- A proper prefix of a frame within the cap is incomplete. Completing a frame
or rejecting a length is final, and the whole frame decodes as itself. -/
theorem proper_prefix_incomplete {endian : Endian} {buffer payload : List Byte}
    {maxPayloadBytes : UInt64} {result : FrameDecodeResult}
    (decoded : tryDecodeFrame (lp64 endian) buffer maxPayloadBytes = .ok result)
    (fits : payload.length ≤ payloadCap maxPayloadBytes) (begins : buffer <+: frame payload)
    (proper : buffer ≠ frame payload) : result.status = .incomplete := by
  obtain ⟨behind, shape⟩ := begins
  have whole := frame_completes endian payload [] maxPayloadBytes fits
  rw [List.append_nil, ← shape] at whole
  cases verdict : result.status with
  | incomplete => rfl
  | oversizedLength =>
    have only := unfinished_result_empty endian buffer maxPayloadBytes result decoded
      (by simp [verdict])
    rw [only, verdict] at decoded
    have rejected := oversized_stable endian buffer behind maxPayloadBytes decoded
    rw [whole] at rejected
    simp at rejected
  | complete =>
    obtain ⟨status, consumed, front⟩ := result
    subst verdict
    obtain ⟨frontFits, _, rest, frontShape⟩ :=
      complete_frame endian buffer front maxPayloadBytes consumed decoded
    have small := payload_cap_bound maxPayloadBytes
    have same : frame front ++ (rest ++ behind) = frame payload ++ [] := by
      rw [List.append_nil, ← shape, frontShape, List.append_assoc]
    obtain ⟨_, nothing⟩ := frame_front_unique (by omega) (by omega) same
    apply False.elim
    apply proper
    rw [← shape, (List.append_eq_nil_iff.mp nothing).2, List.append_nil]

/-- A completed frame stays completed whatever arrives behind it. -/
theorem complete_stable {endian : Endian} {buffer : List Byte} {maxPayloadBytes : UInt64}
    {result : FrameDecodeResult}
    (decoded : tryDecodeFrame (lp64 endian) buffer maxPayloadBytes = .ok result)
    (finished : result.status = .complete) (more : List Byte) :
    tryDecodeFrame (lp64 endian) (buffer ++ more) maxPayloadBytes = .ok result := by
  obtain ⟨status, consumed, payload⟩ := result
  subst finished
  obtain ⟨fits, length, rest, shape⟩ :=
    complete_frame endian buffer payload maxPayloadBytes consumed decoded
  rw [shape, List.append_assoc, length]
  exact frame_completes endian payload (rest ++ more) maxPayloadBytes fits

/-- The verdicts of the decoder are stable and exact. Every call returns a
result. A result other than `Incomplete` does not change when input is appended;
`Incomplete` is returned exactly for buffers shorter than a header and for proper
prefixes of what the encoder writes for some payload within the cap; and only a
complete result carries bytes. -/
theorem verdicts_stable_exact (endian : Endian) (buffer : List Byte) (maxPayloadBytes : UInt64) :
    ∃ result, tryDecodeFrame (lp64 endian) buffer maxPayloadBytes = .ok result ∧
      (result.status = .complete → ∀ more,
        tryDecodeFrame (lp64 endian) (buffer ++ more) maxPayloadBytes = .ok result) ∧
      (result.status = .oversizedLength → ∀ more, ∃ later,
        tryDecodeFrame (lp64 endian) (buffer ++ more) maxPayloadBytes = .ok later ∧
          later.status = .oversizedLength) ∧
      (result.status = .incomplete ↔ buffer.length < 4 ∨ ∃ payload wire,
        payload.length ≤ min maxPayloadBytes.toNat (2 ^ 32 - 1) ∧
          appendEncodedFrame [] payload maxPayloadBytes = .ok (.ok (), wire) ∧
          buffer <+: wire ∧ buffer ≠ wire) ∧
      (result.status ≠ .complete → result.consumedBytes = 0 ∧ result.payload = []) := by
  obtain ⟨result, decoded⟩ := try_decode_frame_defined endian buffer maxPayloadBytes
  refine ⟨result, decoded, complete_stable decoded, ?_, ⟨?_, ?_⟩, ?_⟩
  · intro oversized more
    have only := unfinished_result_empty endian buffer maxPayloadBytes result decoded
      (by simp [oversized])
    rw [only, oversized] at decoded
    exact ⟨_, oversized_stable endian buffer more maxPayloadBytes decoded, rfl⟩
  · intro incomplete
    apply (incomplete_cases decoded incomplete).imp_right
    rintro ⟨b0, b1, b2, b3, body, rfl, within, missing⟩
    obtain ⟨payload, length, begins, proper⟩ := incomplete_begins_frame b0 b1 b2 b3 body missing
    have fits : payload.length ≤ payloadCap maxPayloadBytes := by omega
    refine ⟨payload, frame payload, fits, ?_, begins, proper⟩
    simp [append_encoded_frame_exact, fits]
  · rintro (short | ⟨payload, wire, fits, encoded, begins, proper⟩)
    · rw [try_decode_frame_short _ buffer maxPayloadBytes short] at decoded
      cases decoded
      rfl
    · have within : payload.length ≤ payloadCap maxPayloadBytes := fits
      simp only [append_encoded_frame_exact, within, ↓reduceIte, List.nil_append, Except.ok.injEq,
        Prod.mk.injEq, true_and] at encoded
      subst encoded
      exact proper_prefix_incomplete decoded within begins proper
  · intro unfinished
    have only := unfinished_result_empty endian buffer maxPayloadBytes result decoded unfinished
    rw [only]
    exact ⟨rfl, rfl⟩

end TcpServer.WireForm
