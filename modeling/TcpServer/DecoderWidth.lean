import TcpServer.FrameCodec

/-!
# The frame decoder and the width of `size_t`

`try_decode_frame` adds the header length to a 32-bit payload length in
`size_t`. A 64-bit `size_t` represents every sum. A 32-bit one does not: for the
four largest lengths the sum wraps to at most three, the test of the buffer's
size passes although the frame is not there, and the decoder is on its
`Complete` path with a frame that ends behind the buffer.

The results say exactly for which buffers and limits this happens, on hosts of
both widths and either byte order.
-/

namespace TcpServer.FrameDecoder

/-- The tests that the decoder passes in front of its `Complete` path, with the
payload length that it has read. -/
def ReachesComplete (host : Host) (buffer : List Byte) (maxPayloadBytes : UInt64)
    (payloadLen : UInt32) : Prop :=
  kFrameLengthFieldBytes ≤ buffer.length ∧
  readU32Be host.endian buffer = .ok payloadLen ∧
  payloadLen.toUInt64 ≤ effectiveMaxPayload maxPayloadBytes ∧
  host.size (kFrameLengthFieldBytes + host.size payloadLen.toNat) ≤ buffer.length

/-- What the `Complete` path needs: the frame size does not wrap, it is what the
caller is told to consume, the frame lies inside the buffer, and each byte of
the payload is copied from an index of the buffer. -/
def CompletesWithin (host : Host) (buffer : List Byte) (maxPayloadBytes : UInt64)
    (payloadLen : UInt32) : Prop :=
  kFrameLengthFieldBytes + payloadLen.toNat < 2 ^ host.sizeBits ∧
  kFrameLengthFieldBytes + payloadLen.toNat ≤ buffer.length ∧
  ∃ payload, tryDecodeFrame host buffer maxPayloadBytes =
      .ok { status := .complete, consumedBytes := kFrameLengthFieldBytes + payloadLen.toNat,
            payload } ∧
    payload.length = payloadLen.toNat ∧
    ∀ index, index < payloadLen.toNat → kFrameLengthFieldBytes + index < buffer.length ∧
      payload[index]? = buffer[kFrameLengthFieldBytes + index]?

/-- The header declares one of the four largest lengths, the limit lets it pass,
and `size_t` has 32 bits. -/
def FrameSizeWraps (host : Host) (maxPayloadBytes : UInt64) : List Byte → Prop
  | b0 :: b1 :: b2 :: b3 :: _ =>
      host.sizeBits = 32 ∧ 2 ^ 32 - 4 ≤ declaredLength b0 b1 b2 b3 ∧
        declaredLength b0 b1 b2 b3 ≤ maxPayloadBytes.toNat
  | _ => False

section Header

variable {host : Host} {b0 b1 b2 b3 : Byte} {body : List Byte} {maxPayloadBytes : UInt64}

/-- A length read from a complete header is the declared one. -/
theorem read_length_declared {payloadLen : UInt32}
    (loaded : readU32Be host.endian (b0 :: b1 :: b2 :: b3 :: body) = .ok payloadLen) :
    payloadLen.toNat = declaredLength b0 b1 b2 b3 := by
  obtain ⟨value, read, denotes⟩ := read_u32_be_value host.endian b0 b1 b2 b3 body
  rw [read] at loaded
  cases loaded
  exact denotes

/-- A length passes the cap test when it is at most the cap. -/
theorem within_cap_iff (payloadLen : UInt32) :
    payloadLen.toUInt64 ≤ effectiveMaxPayload maxPayloadBytes ↔
      payloadLen.toNat ≤ maxPayloadBytes.toNat := by
  have small : payloadLen.toNat < 2 ^ 32 := payloadLen.toNat_lt
  rw [UInt64.le_iff_toNat_le, effective_max_payload_value, UInt32.toNat_toUInt64, payloadCap]
  omega

/-- Both widths of `size_t` hold every 32-bit number. -/
theorem width_holds (width : host.sizeBits = 32 ∨ host.sizeBits = 64) :
    2 ^ 32 ≤ 2 ^ host.sizeBits := by
  apply Nat.pow_le_pow_right
  · decide
  · omega

/-- A 32-bit length is its own value in a `size_t` of at least 32 bits. -/
theorem size_of_length (wide : 2 ^ 32 ≤ 2 ^ host.sizeBits) (payloadLen : UInt32) :
    host.size payloadLen.toNat = payloadLen.toNat := by
  have small : payloadLen.toNat < 2 ^ 32 := payloadLen.toNat_lt
  exact Nat.mod_eq_of_lt (by omega)

/-- Reaching the `Complete` path, in terms of the declared length. -/
theorem reaches_complete_header (wide : 2 ^ 32 ≤ 2 ^ host.sizeBits) {payloadLen : UInt32}
    (reaches : ReachesComplete host (b0 :: b1 :: b2 :: b3 :: body) maxPayloadBytes payloadLen) :
    payloadLen.toNat = declaredLength b0 b1 b2 b3 ∧
      declaredLength b0 b1 b2 b3 ≤ maxPayloadBytes.toNat ∧
      host.size (4 + declaredLength b0 b1 b2 b3) ≤ body.length + 4 := by
  obtain ⟨_, loaded, capped, present⟩ := reaches
  have declared := read_length_declared loaded
  rw [size_of_length wide, declared] at present
  rw [within_cap_iff, declared] at capped
  exact ⟨declared, capped, present⟩

/-- A length in the wrapping range leads to the `Complete` path of a 32-bit host
whatever follows the header: the wrapped size is at most three. -/
theorem wrapped_reaches_complete (body : List Byte) (narrow : host.sizeBits = 32)
    (large : 2 ^ 32 - 4 ≤ declaredLength b0 b1 b2 b3)
    (allowed : declaredLength b0 b1 b2 b3 ≤ maxPayloadBytes.toNat) :
    ∃ payloadLen,
      ReachesComplete host (b0 :: b1 :: b2 :: b3 :: body) maxPayloadBytes payloadLen ∧
        payloadLen.toNat = declaredLength b0 b1 b2 b3 := by
  obtain ⟨value, loaded, denotes⟩ := read_u32_be_value host.endian b0 b1 b2 b3 body
  have bound := declared_length_bound b0 b1 b2 b3
  have wrapped : host.size (4 + declaredLength b0 b1 b2 b3) ≤ 3 := by
    rw [Host.size, narrow]
    omega
  refine ⟨value, ⟨?_, loaded, ?_, ?_⟩, denotes⟩
  · simp [kFrameLengthFieldBytes]
  · rw [within_cap_iff, denotes]
    exact allowed
  · rw [size_of_length (width_holds (Or.inl narrow)), denotes, kFrameLengthFieldBytes]
    simp only [List.length_cons]
    omega

/-- A frame whose size does not wrap and that lies in the buffer completes within it. -/
theorem completes_within_sized {payloadLen : UInt32}
    (declared : payloadLen.toNat = declaredLength b0 b1 b2 b3)
    (allowed : declaredLength b0 b1 b2 b3 ≤ maxPayloadBytes.toNat)
    (sized : 4 + declaredLength b0 b1 b2 b3 < 2 ^ host.sizeBits)
    (present : declaredLength b0 b1 b2 b3 ≤ body.length) :
    CompletesWithin host (b0 :: b1 :: b2 :: b3 :: body) maxPayloadBytes payloadLen := by
  have bound := declared_length_bound b0 b1 b2 b3
  have capped : ¬ payloadCap maxPayloadBytes < declaredLength b0 b1 b2 b3 := by
    unfold payloadCap
    omega
  have decoded := try_decode_frame_sized host b0 b1 b2 b3 body maxPayloadBytes sized
  rw [if_neg capped, if_neg (Nat.not_lt.mpr present)] at decoded
  unfold CompletesWithin
  rw [kFrameLengthFieldBytes, declared]
  refine ⟨sized, ?_, _, decoded, ?_, ?_⟩
  · simp only [List.length_cons]
    omega
  · rw [List.length_take, Nat.min_eq_left present]
  · intro index below
    constructor
    · simp only [List.length_cons]
      omega
    · rw [List.getElem?_take_of_lt below]
      simp [Nat.add_comm 4 index]

end Header

/-- The decoder enters its `Complete` path when it returns neither of the other
two verdicts: it completes, or the copy faults. -/
theorem reaches_complete_iff (host : Host) (buffer : List Byte) (maxPayloadBytes : UInt64) :
    (∃ payloadLen, ReachesComplete host buffer maxPayloadBytes payloadLen) ↔
      tryDecodeFrame host buffer maxPayloadBytes ≠ .ok { status := .incomplete } ∧
        tryDecodeFrame host buffer maxPayloadBytes ≠ .ok { status := .oversizedLength } := by
  by_cases short : buffer.length < 4
  · have decoded := try_decode_frame_short host buffer maxPayloadBytes short
    constructor
    · intro ⟨_, header, _⟩
      exact absurd short (Nat.not_lt.mpr header)
    · intro ⟨complete, _⟩
      exact absurd decoded complete
  · match buffer with
    | [] | [_] | [_, _] | [_, _, _] => simp at short
    | b0 :: b1 :: b2 :: b3 :: body =>
      obtain ⟨value, loaded, _⟩ := read_u32_be_value host.endian b0 b1 b2 b3 body
      have tests := try_decode_frame_tests host b0 b1 b2 b3 body maxPayloadBytes value loaded
      constructor
      · intro ⟨payloadLen, _, read, capped, present⟩
        cases loaded.symm.trans read
        have available : ¬ body.length + 4 < host.size (4 + host.size value.toNat) :=
          Nat.not_lt.mpr present
        rw [if_neg (UInt64.not_lt.mpr capped), if_neg available] at tests
        rw [tests]
        cases copyN body (host.size value.toNat) with
        | error fault => exact ⟨nofun, nofun⟩
        | ok payload => exact ⟨nofun, nofun⟩
      · intro ⟨complete, admitted⟩
        rw [tests] at complete admitted
        by_cases oversized : value.toUInt64 > effectiveMaxPayload maxPayloadBytes
        · rw [if_pos oversized] at admitted
          exact absurd rfl admitted
        · rw [if_neg oversized] at complete
          by_cases missing : body.length + 4 < host.size (4 + host.size value.toNat)
          · rw [if_pos missing] at complete
            exact absurd rfl complete
          · exact ⟨value, Nat.not_lt.mp short, loaded, UInt64.not_lt.mp oversized,
              Nat.not_lt.mp missing⟩

/-- The `Complete` path stays inside the buffer exactly when the frame size does
not wrap. On a 64-bit host it never wraps. -/
theorem complete_path_within_iff (host : Host) (width : host.sizeBits = 32 ∨ host.sizeBits = 64)
    (buffer : List Byte) (addressed : buffer.length < 2 ^ host.sizeBits)
    (maxPayloadBytes : UInt64) :
    (∀ payloadLen, ReachesComplete host buffer maxPayloadBytes payloadLen →
        CompletesWithin host buffer maxPayloadBytes payloadLen) ↔
      ¬ FrameSizeWraps host maxPayloadBytes buffer := by
  match buffer with
  | [] | [_] | [_, _] | [_, _, _] =>
    constructor
    · intro _ wraps
      exact wraps
    · intro _ payloadLen reaches
      have header := reaches.1
      simp [kFrameLengthFieldBytes] at header
  | b0 :: b1 :: b2 :: b3 :: body =>
    have bound := declared_length_bound b0 b1 b2 b3
    constructor
    · intro within wraps
      obtain ⟨narrow, large, allowed⟩ := wraps
      obtain ⟨payloadLen, reaches, declared⟩ :=
        wrapped_reaches_complete body narrow large allowed
      have sized := (within payloadLen reaches).1
      rw [declared, narrow, kFrameLengthFieldBytes] at sized
      omega
    · intro regular payloadLen reaches
      obtain ⟨declared, allowed, present⟩ := reaches_complete_header (width_holds width) reaches
      have sized : 4 + declaredLength b0 b1 b2 b3 < 2 ^ host.sizeBits := by
        rcases width with narrow | broad
        · rw [narrow]
          by_contra wrapped
          exact regular ⟨narrow, by omega, allowed⟩
        · rw [broad]
          omega
      rw [Host.size, Nat.mod_eq_of_lt sized] at present
      exact completes_within_sized declared allowed sized (by omega)

/-- A frame with one payload byte on a 32-bit host, where the size does not wrap: the
`Complete` path is taken and stays inside the buffer. -/
theorem complete_path_within_small :
    ReachesComplete ⟨32, .big⟩ [0, 0, 0, 1, 42] 16 1 ∧
      CompletesWithin ⟨32, .big⟩ [0, 0, 0, 1, 42] 16 1 := by
  have reaches : ReachesComplete ⟨32, .big⟩ [0, 0, 0, 1, 42] 16 1 :=
    ⟨by decide, rfl, by decide, by decide⟩
  have regular : ¬ FrameSizeWraps ⟨32, .big⟩ 16 [0, 0, 0, 1, 42] := by
    rintro ⟨_, large, _⟩
    exact absurd large (by decide)
  exact ⟨reaches, (complete_path_within_iff ⟨32, .big⟩ (Or.inl rfl) [0, 0, 0, 1, 42] (by decide)
    16).mpr regular 1 reaches⟩

/-- Four bytes of a header that declares `2^32 - 1`, a limit that admits it, and
a 32-bit host: the computed frame size is three. -/
theorem complete_path_not_always_within :
    ¬ ∀ host : Host, host.sizeBits = 32 ∨ host.sizeBits = 64 →
      ∀ buffer : List Byte, buffer.length < 2 ^ host.sizeBits → ∀ maxPayloadBytes payloadLen,
        ReachesComplete host buffer maxPayloadBytes payloadLen →
          CompletesWithin host buffer maxPayloadBytes payloadLen := by
  intro always
  have reaches : ReachesComplete ⟨32, .little⟩ [255, 255, 255, 255] 0xFFFFFFFF 0xFFFFFFFF := by
    refine ⟨by decide, rfl, by decide, by decide⟩
  have sized := (always ⟨32, .little⟩ (Or.inl rfl) [255, 255, 255, 255] (by decide) 0xFFFFFFFF
    0xFFFFFFFF reaches).1
  exact absurd sized (by decide)

end TcpServer.FrameDecoder
