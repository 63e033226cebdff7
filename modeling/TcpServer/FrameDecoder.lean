import TcpServer.Platform

/-!
# The frame decoder

A frame is a big-endian 32-bit payload length followed by the payload.
`tryDecodeFrame` embeds `try_decode_frame` on an arbitrary host: the length is
loaded in the host's byte order and swapped where that is little-endian, sizes
are computed in the host's `size_t`, and a copy past the end of the buffer is a
fault rather than a default value.

On a host whose `size_t` represents every frame size the decoder has a closed
form, in terms of the declared length and the bytes behind the header.
-/

namespace TcpServer.FrameDecoder

/-- `k_frame_length_field_bytes`: the length field in front of each payload. -/
def kFrameLengthFieldBytes : Nat := 4

/-- The verdicts of the decoder: more input is needed, a frame is there, or its length
is beyond the limit. -/
inductive Status where
  | incomplete
  | complete
  | oversizedLength
deriving DecidableEq, Repr

/-- What the decoder returns. The last two fields are only set for a complete frame.
-/
structure FrameDecodeResult where
  status : Status := .incomplete
  consumedBytes : Nat := 0
  payload : List Byte := []
deriving DecidableEq, Repr

/-- The number whose base-256 digits are the given bytes, the least significant first.
Any four bytes are such a number. -/
def digits (b0 b1 b2 b3 : Byte) : UInt32 :=
  UInt32.ofNat (b0.toNat + 256 * b1.toNat + 65536 * b2.toNat + 16777216 * b3.toNat)

/-- The object representation of four bytes in memory order, as a `std::uint32_t`. It
depends on the byte order of the host. -/
def memcpyU32 (endian : Endian) (b0 b1 b2 b3 : Byte) : UInt32 :=
  match endian with
  | .little => digits b0 b1 b2 b3
  | .big => digits b3 b2 b1 b0

/-- `std::byteswap` on 32 bits: the digits in the opposite order. -/
def byteswap (x : UInt32) : UInt32 :=
  digits (x >>> 24).toUInt8 (x >>> 16).toUInt8 (x >>> 8).toUInt8 x.toUInt8

/-- Read four bytes as a big-endian number, whatever the host's byte order. Fewer than
four are an access outside the buffer. -/
def readU32Be (endian : Endian) (p : List Byte) : Except Fault UInt32 :=
  match p with
  | b0 :: b1 :: b2 :: b3 :: _ =>
      let x := memcpyU32 endian b0 b1 b2 b3
      if endian = .little then .ok (byteswap x) else .ok x
  | _ => .error .outOfBounds

/-- `(std::min)(max_payload_bytes, UINT32_MAX)`. -/
def effectiveMaxPayload (maxPayloadBytes : UInt64) : UInt64 :=
  if 0xFFFFFFFF < maxPayloadBytes then 0xFFFFFFFF else maxPayloadBytes

/-- `std::copy_n` from the front of `source`. Copying more than there is reads outside
of it. -/
def copyN (source : List Byte) (count : Nat) : Except Fault (List Byte) :=
  if count ≤ source.length then .ok (source.take count) else .error .outOfBounds

/-- `try_decode_frame`. The length field is read when it is there, held against the
limit, and then against the bytes behind it; the sums are those of `size_t` on the
host, and copying the payload faults when it leaves the buffer. -/
def tryDecodeFrame (host : Host) (buffer : List Byte) (maxPayloadBytes : UInt64) :
    Except Fault FrameDecodeResult := do
  if buffer.length < kFrameLengthFieldBytes then
    return { status := .incomplete }
  let payloadLen := (← readU32Be host.endian buffer).toUInt64
  let cap := effectiveMaxPayload maxPayloadBytes
  if payloadLen > cap then
    return { status := .oversizedLength }
  let total := host.size (kFrameLengthFieldBytes + host.size payloadLen.toNat)
  if buffer.length < total then
    return { status := .incomplete }
  let payload ← if payloadLen > 0 then
      copyN (buffer.drop kFrameLengthFieldBytes) (host.size payloadLen.toNat)
    else .ok []
  let out : FrameDecodeResult := { status := .complete, consumedBytes := total, payload }
  check (out.status == .complete)
  check (out.consumedBytes == total)
  check (out.consumedBytes == host.size (kFrameLengthFieldBytes + out.payload.length))
  return out

/-- The payload length that four header bytes declare, as a number without a width. -/
def declaredLength (b0 b1 b2 b3 : Byte) : Nat :=
  16777216 * b0.toNat + 65536 * b1.toNat + 256 * b2.toNat + b3.toNat

/-- The cap of both directions of the codec, as a number: the limit of the caller, and
at most what four bytes can say. -/
def payloadCap (maxPayloadBytes : UInt64) : Nat := min maxPayloadBytes.toNat (2 ^ 32 - 1)

/-- A declared length is a 32-bit number, whatever the four bytes are. -/
theorem declared_length_bound (b0 b1 b2 b3 : Byte) : declaredLength b0 b1 b2 b3 < 2 ^ 32 := by
  have first := b0.toNat_lt
  have second := b1.toNat_lt
  have third := b2.toNat_lt
  have fourth := b3.toNat_lt
  unfold declaredLength
  omega

/-- Four digits below 256 need no reduction: their number fits into 32 bits. -/
theorem digits_value (b0 b1 b2 b3 : Byte) :
    (digits b0 b1 b2 b3).toNat = declaredLength b3 b2 b1 b0 := by
  have bound := declared_length_bound b3 b2 b1 b0
  unfold declaredLength at bound ⊢
  rw [digits, UInt32.toNat_ofNat']
  omega

/-- Swapping a little-endian load gives the big-endian number. -/
theorem byteswap_digits (b0 b1 b2 b3 : Byte) :
    byteswap (digits b0 b1 b2 b3) = digits b3 b2 b1 b0 := by
  have first := b0.toNat_lt
  have second := b1.toNat_lt
  have third := b2.toNat_lt
  have fourth := b3.toNat_lt
  have value := digits_value b0 b1 b2 b3
  unfold declaredLength at value
  have byte0 : (digits b0 b1 b2 b3).toUInt8 = b0 := by
    apply UInt8.toNat_inj.mp
    simp only [UInt32.toNat_toUInt8, value]
    omega
  have byte1 : (digits b0 b1 b2 b3 >>> 8).toUInt8 = b1 := by
    apply UInt8.toNat_inj.mp
    simp [UInt32.toNat_shiftRight, value, Nat.shiftRight_eq_div_pow]
    omega
  have byte2 : (digits b0 b1 b2 b3 >>> 16).toUInt8 = b2 := by
    apply UInt8.toNat_inj.mp
    simp [UInt32.toNat_shiftRight, value, Nat.shiftRight_eq_div_pow]
    omega
  have byte3 : (digits b0 b1 b2 b3 >>> 24).toUInt8 = b3 := by
    apply UInt8.toNat_inj.mp
    simp [UInt32.toNat_shiftRight, value, Nat.shiftRight_eq_div_pow]
    omega
  rw [byteswap, byte0, byte1, byte2, byte3]

/-- The header is read as its declared length on every host, of either byte order. -/
theorem read_u32_be_value (endian : Endian) (b0 b1 b2 b3 : Byte) (rest : List Byte) :
    ∃ value, readU32Be endian (b0 :: b1 :: b2 :: b3 :: rest) = .ok value ∧
      value.toNat = declaredLength b0 b1 b2 b3 := by
  refine ⟨digits b3 b2 b1 b0, ?_, digits_value b3 b2 b1 b0⟩
  cases endian with
  | little => simp [readU32Be, memcpyU32, byteswap_digits]
  | big => simp [readU32Be, memcpyU32]

/-- The computed cap is the smaller of the limit and `UINT32_MAX`. -/
theorem effective_max_payload_value (maxPayloadBytes : UInt64) :
    (effectiveMaxPayload maxPayloadBytes).toNat = payloadCap maxPayloadBytes := by
  unfold effectiveMaxPayload payloadCap
  split
  · rename_i above
    have larger : 2 ^ 32 - 1 < maxPayloadBytes.toNat := UInt64.lt_iff_toNat_lt.mp above
    rw [Nat.min_eq_right (Nat.le_of_lt larger)]
    rfl
  · rename_i within
    have smaller : ¬ 2 ^ 32 - 1 < maxPayloadBytes.toNat := fun larger =>
      within (UInt64.lt_iff_toNat_lt.mpr larger)
    rw [Nat.min_eq_left (by omega)]

/-- With fewer bytes than a header more input is needed, on every host and under every
limit. -/
theorem try_decode_frame_short (host : Host) (buffer : List Byte) (maxPayloadBytes : UInt64)
    (short : buffer.length < 4) :
    tryDecodeFrame host buffer maxPayloadBytes = .ok { status := .incomplete } := by
  simp [tryDecodeFrame, kFrameLengthFieldBytes, short, pure, Except.pure]

/-- The tests of the decoder behind a header that it has read as `value`. The
asserts restate how `out` was filled in; only the copy can fault. -/
theorem try_decode_frame_tests (host : Host) (b0 b1 b2 b3 : Byte) (body : List Byte)
    (maxPayloadBytes : UInt64) (value : UInt32)
    (loaded : readU32Be host.endian (b0 :: b1 :: b2 :: b3 :: body) = .ok value) :
    tryDecodeFrame host (b0 :: b1 :: b2 :: b3 :: body) maxPayloadBytes =
      if value.toUInt64 > effectiveMaxPayload maxPayloadBytes then
        .ok { status := .oversizedLength }
      else if body.length + 4 < host.size (4 + host.size value.toNat) then
        .ok { status := .incomplete }
      else
        (copyN body (host.size value.toNat)).map fun payload =>
          { status := .complete, consumedBytes := host.size (4 + host.size value.toNat),
            payload } := by
  have header : ¬ body.length + 1 + 1 + 1 + 1 < 4 := by omega
  simp only [tryDecodeFrame, kFrameLengthFieldBytes, List.length_cons, loaded, header,
    UInt32.toNat_toUInt64, List.drop_succ_cons, List.drop_zero, beq_self_eq_true, check_true, bind,
    Except.bind, pure, Except.pure, ↓reduceIte]
  by_cases oversized : value.toUInt64 > effectiveMaxPayload maxPayloadBytes
  · simp only [oversized, ↓reduceIte]
  · by_cases missing : body.length + 4 < host.size (4 + host.size value.toNat)
    · simp only [oversized, missing, ↓reduceIte]
    · by_cases positive : value.toUInt64 > 0
      · by_cases copied : host.size value.toNat ≤ body.length
        · simp [oversized, missing, positive, copyN, copied, Except.map]
        · simp [oversized, missing, positive, copyN, copied, Except.map]
      · have zero : value.toNat = 0 := by
          rw [gt_iff_lt, UInt64.lt_iff_toNat_lt, UInt32.toNat_toUInt64] at positive
          exact Nat.eq_zero_of_not_pos positive
        have empty : host.size value.toNat = 0 := by rw [zero, Host.size, Nat.zero_mod]
        rw [empty] at missing ⊢
        simp [oversized, missing, positive, copyN, Except.map]

/-- The decoder behind a complete header, where the frame size does not wrap. No
step of it can fault: the copy is guarded by the size test. -/
theorem try_decode_frame_sized (host : Host) (b0 b1 b2 b3 : Byte) (body : List Byte)
    (maxPayloadBytes : UInt64) (sized : 4 + declaredLength b0 b1 b2 b3 < 2 ^ host.sizeBits) :
    tryDecodeFrame host (b0 :: b1 :: b2 :: b3 :: body) maxPayloadBytes =
      .ok (if payloadCap maxPayloadBytes < declaredLength b0 b1 b2 b3 then
          { status := .oversizedLength }
        else if body.length < declaredLength b0 b1 b2 b3 then { status := .incomplete }
        else
          { status := .complete, consumedBytes := 4 + declaredLength b0 b1 b2 b3,
            payload := body.take (declaredLength b0 b1 b2 b3) }) := by
  obtain ⟨value, loaded, denotes⟩ := read_u32_be_value host.endian b0 b1 b2 b3 body
  have above : value.toUInt64 > effectiveMaxPayload maxPayloadBytes ↔
      payloadCap maxPayloadBytes < declaredLength b0 b1 b2 b3 := by
    rw [gt_iff_lt, UInt64.lt_iff_toNat_lt, effective_max_payload_value, UInt32.toNat_toUInt64,
      denotes]
  have narrow : host.size value.toNat = declaredLength b0 b1 b2 b3 := by
    rw [denotes, Host.size, Nat.mod_eq_of_lt (by omega)]
  have total : host.size (4 + declaredLength b0 b1 b2 b3) = 4 + declaredLength b0 b1 b2 b3 := by
    rw [Host.size, Nat.mod_eq_of_lt sized]
  rw [try_decode_frame_tests host b0 b1 b2 b3 body maxPayloadBytes value loaded, narrow, total]
  simp only [above]
  by_cases oversized : payloadCap maxPayloadBytes < declaredLength b0 b1 b2 b3
  · simp only [oversized, ↓reduceIte]
  · by_cases missing : body.length < declaredLength b0 b1 b2 b3
    · have incomplete : body.length + 4 < 4 + declaredLength b0 b1 b2 b3 := by omega
      simp only [oversized, missing, incomplete, ↓reduceIte]
    · have present : ¬ body.length + 4 < 4 + declaredLength b0 b1 b2 b3 := by omega
      have copied : declaredLength b0 b1 b2 b3 ≤ body.length := Nat.not_lt.mp missing
      simp only [oversized, missing, present, copyN, copied, Except.map, ↓reduceIte]

/-- The same for every header, on a host whose `size_t` holds every frame size. -/
theorem try_decode_frame_header (host : Host) (wide : 2 ^ 32 + 4 ≤ 2 ^ host.sizeBits)
    (b0 b1 b2 b3 : Byte) (body : List Byte) (maxPayloadBytes : UInt64) :
    tryDecodeFrame host (b0 :: b1 :: b2 :: b3 :: body) maxPayloadBytes =
      .ok (if payloadCap maxPayloadBytes < declaredLength b0 b1 b2 b3 then
          { status := .oversizedLength }
        else if body.length < declaredLength b0 b1 b2 b3 then { status := .incomplete }
        else
          { status := .complete, consumedBytes := 4 + declaredLength b0 b1 b2 b3,
            payload := body.take (declaredLength b0 b1 b2 b3) }) := by
  have bound := declared_length_bound b0 b1 b2 b3
  exact try_decode_frame_sized host b0 b1 b2 b3 body maxPayloadBytes (by omega)

end TcpServer.FrameDecoder
