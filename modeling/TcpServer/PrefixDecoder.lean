import Mathlib.Data.List.Basic

/-!
# Incremental decoding of a stream

A prefix decoder looks at the front of a buffer and either asks for more input,
accepts one value with the number of symbols it occupies, or rejects. Its laws
say that accepting and rejecting are stable: input that arrives later does not
change them. Asking for more is the only verdict that may change.

`parse` applies a decoder from the front until it does not accept. It says what a
whole stream means, against which a receiver of the stream in pieces is measured.
-/

namespace PrefixDecoder

universe u v
variable {α : Type u} {β : Type v}

/-- What a decoder says of the front of its input: more is needed, a value was found
in so many symbols, or there will never be one. -/
inductive Verdict (β : Type v) where
  | needMore
  | accept (consumed : Nat) (value : β)
  | reject
deriving DecidableEq

/-- A decoder together with the laws that later input cannot break: what it accepts
lies in the buffer, and its verdict does not change when more arrives. -/
structure Decoder (α : Type u) (β : Type v) where
  decode : List α → Verdict β
  accept_bounds : ∀ {buffer consumed value}, decode buffer = .accept consumed value →
    0 < consumed ∧ consumed ≤ buffer.length
  accept_stable : ∀ {buffer consumed value}, decode buffer = .accept consumed value →
    ∀ more, decode (buffer ++ more) = .accept consumed value
  reject_stable : ∀ {buffer}, decode buffer = .reject → ∀ more, decode (buffer ++ more) = .reject

/-- Why a parse ended: the rest is no value yet, or it can never begin one. -/
inductive Stop where
  | starved
  | rejected
deriving DecidableEq, Repr

/-- The accepted values in order, the reason to stop, and the input left over. Nothing
of the input is lost between them. -/
structure Parsed (α : Type u) (β : Type v) where
  values : List β
  stop : Stop
  rest : List α

/-- Put already accepted values in front of a parse. The reason to stop and the rest
stay. -/
def Parsed.after (values : List β) (parsed : Parsed α β) : Parsed α β :=
  { parsed with values := values ++ parsed.values }

/-- Parsing behind nothing is parsing. -/
@[simp] theorem after_nil (parsed : Parsed α β) : parsed.after [] = parsed := rfl

/-- Accepted values accumulate in stream order: what is put in front later stands
further in front. -/
theorem after_after (first second : List β) (parsed : Parsed α β) :
    (parsed.after second).after first = parsed.after (first ++ second) := by
  simp [Parsed.after]

variable (decoder : Decoder α β)

/-- Accept from the front for as long as possible. Each accepted value occupies
at least one symbol, so the remaining buffer is shorter. -/
def Decoder.parse (buffer : List α) : Parsed α β :=
  match _verdict : decoder.decode buffer with
  | .needMore => ⟨[], .starved, buffer⟩
  | .reject => ⟨[], .rejected, buffer⟩
  | .accept consumed value => (Decoder.parse (buffer.drop consumed)).after [value]
termination_by buffer.length
decreasing_by
  have bounds := decoder.accept_bounds _verdict
  simp only [List.length_drop]
  omega

variable {decoder}

/-- A decoder that asks for more input ends the parse, and the whole buffer is left
over. -/
theorem parse_needMore {buffer : List α} (verdict : decoder.decode buffer = .needMore) :
    decoder.parse buffer = ⟨[], .starved, buffer⟩ := by
  rw [Decoder.parse]
  split <;> simp_all

/-- A decoder that rejects ends the parse, and the whole buffer is left over. -/
theorem parse_reject {buffer : List α} (verdict : decoder.decode buffer = .reject) :
    decoder.parse buffer = ⟨[], .rejected, buffer⟩ := by
  rw [Decoder.parse]
  split <;> simp_all

/-- An accepted value is followed by the parse of the input behind it. With the other
two this is all that is known of a parse. -/
theorem parse_accept {buffer : List α} {consumed : Nat} {value : β}
    (verdict : decoder.decode buffer = .accept consumed value) :
    decoder.parse buffer = (decoder.parse (buffer.drop consumed)).after [value] := by
  rw [Decoder.parse]
  split <;> simp_all

/-- The leftover input of a starved parse asks for more input, and the leftover
input of a rejecting parse is rejected. -/
theorem parse_rest_verdict (decoder : Decoder α β) (buffer : List α) :
    decoder.decode (decoder.parse buffer).rest =
      match (decoder.parse buffer).stop with
      | .starved => .needMore
      | .rejected => .reject := by
  induction buffer using Decoder.parse.induct decoder with
  | case1 buffer verdict => simp [parse_needMore verdict, verdict]
  | case2 buffer verdict => simp [parse_reject verdict, verdict]
  | case3 buffer consumed value verdict inductionHypothesis =>
    simpa [parse_accept verdict, Parsed.after] using inductionHypothesis

end PrefixDecoder
