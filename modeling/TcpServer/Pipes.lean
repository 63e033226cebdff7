import Mathlib.Data.List.Basic

/-!
# Pipes

One direction of a stream connection. What the writer hands over is in flight until
it arrives, in pieces of any size; the reader takes what has arrived, again in
pieces. The end of the stream arrives behind everything else. Nothing is lost,
repeated or reordered on the way.

A capacity limits what is on its way at one time. It is not part of a pipe.
-/

namespace Pipes

universe u

/-- What the writer has done about the end of the stream, and what the reader may
know of it. -/
inductive Tail where
  | open
  | closed
  | ended
deriving DecidableEq, Repr

/-- A pipe: what the reader can take, what is still in flight, and the end of the
stream. The last field says that the end never overtakes a value. -/
structure Pipe (α : Type u) where
  arrived : List α := []
  inFlight : List α := []
  tail : Tail := .open
  behind : tail = .ended → inFlight = [] := by simp

namespace Pipe

variable {α : Type u}

/-- All that is on its way, in order: what the reader can take already, and behind it
what is still in flight. -/
def contents (pipe : Pipe α) : List α := pipe.arrived ++ pipe.inFlight

/-- How much more can be handed over to a pipe of this capacity. What has arrived
takes up room until it is read. -/
def room (capacity : Nat) (pipe : Pipe α) : Nat := capacity - pipe.contents.length

/-- The reader will not wait: something has arrived, or the end has. This is what a
poller reports. -/
def readable (pipe : Pipe α) : Bool := !pipe.arrived.isEmpty || pipe.tail == .ended

/-- Hand over to an open pipe, behind everything that is on its way. A closed one
takes nothing. -/
def write (pipe : Pipe α) (values : List α) : Pipe α :=
  if opened : pipe.tail = .open then
    { pipe with inFlight := pipe.inFlight ++ values, behind := by simp [opened] }
  else pipe

/-- The writer announces the end. Nothing can be handed over behind it, and closing
twice is like closing once. -/
def close (pipe : Pipe α) : Pipe α :=
  if pipe.tail = .open then { pipe with tail := .closed, behind := nofun } else pipe

/-- Take from the front of what has arrived. Reading never touches what is in flight.
-/
def read (pipe : Pipe α) (count : Nat) : Pipe α := { pipe with arrived := pipe.arrived.drop count }

/-- The next values arrive, as many as the choice says; behind the last one, the end
does. Nothing arrives out of order. -/
def advance (pipe : Pipe α) (count : Nat) : Option (Pipe α) :=
  if pipe.inFlight = [] then
    if pipe.tail = .closed then some { arrived := pipe.arrived, tail := .ended } else none
  else if 0 < count ∧ count ≤ pipe.inFlight.length then
    some { arrived := pipe.arrived ++ pipe.inFlight.take count
           inFlight := pipe.inFlight.drop count
           tail := pipe.tail
           behind := fun ended => by rw [pipe.behind ended, List.drop_nil] }
  else none

/-- What it means that the reader will not wait, as a statement about the pipe instead
of a test of it. -/
theorem readable_iff {pipe : Pipe α} :
    pipe.readable = true ↔ pipe.arrived ≠ [] ∨ pipe.tail = .ended := by
  simp [readable]

/-- The two things that can arrive: the end of the stream, behind everything else, or
some of the values in flight. -/
theorem advance_cases {pipe next : Pipe α} {count : Nat}
    (advanced : pipe.advance count = some next) :
    (pipe.inFlight = [] ∧ pipe.tail = .closed ∧ next.arrived = pipe.arrived ∧
      next.inFlight = [] ∧ next.tail = .ended) ∨
    (0 < count ∧ count ≤ pipe.inFlight.length ∧
      next.arrived = pipe.arrived ++ pipe.inFlight.take count ∧
      next.inFlight = pipe.inFlight.drop count ∧ next.tail = pipe.tail) := by
  unfold advance at advanced
  split at advanced
  · rename_i nothing
    split at advanced
    · rename_i closed
      cases advanced
      exact Or.inl ⟨nothing, closed, rfl, rfl, rfl⟩
    · cases advanced
  · split at advanced
    · rename_i within
      cases advanced
      exact Or.inr ⟨within.1, within.2, rfl, rfl, rfl⟩
    · cases advanced

/-- Arriving changes nothing about what is on its way, and so neither loses nor
reorders it. -/
theorem advance_contents {pipe next : Pipe α} {count : Nat}
    (advanced : pipe.advance count = some next) : next.contents = pipe.contents := by
  rcases advance_cases advanced with ⟨nothing, _, arrived, flying, _⟩ | ⟨_, _, arrived, flying, _⟩
  · simp only [contents, nothing, arrived, flying]
  · rw [contents, arrived, flying, List.append_assoc, List.take_append_drop, contents]

/-- As long as something is in flight, or the writer has closed, something can arrive.
So a pipe at rest has delivered everything. -/
theorem advance_enabled (pipe : Pipe α) (waits : pipe.inFlight ≠ [] ∨ pipe.tail = .closed) :
    ∃ count next, pipe.advance count = some next := by
  by_cases nothing : pipe.inFlight = []
  · have closed := waits.resolve_left (fun flying => flying nothing)
    exact ⟨0, _, by simp only [advance, nothing, closed, ↓reduceIte]; rfl⟩
  · have positive := List.length_pos_iff.mpr nothing
    have within : 0 < 1 ∧ 1 ≤ pipe.inFlight.length := ⟨Nat.one_pos, positive⟩
    exact ⟨1, _, by simp only [advance, nothing, within, and_self, ↓reduceIte]; rfl⟩

/-- What is handed over to an open pipe stands behind everything else on its way. -/
theorem write_contents {pipe : Pipe α} (opened : pipe.tail = .open) (values : List α) :
    (pipe.write values).contents = pipe.contents ++ values := by
  simp [write, opened, contents]

/-- Handing over does not touch the end of the stream, whether the pipe is open or
not. -/
@[simp] theorem write_tail (pipe : Pipe α) (values : List α) :
    (pipe.write values).tail = pipe.tail := by
  unfold write
  split <;> rfl

/-- Handing over does not touch what the reader can take already: it has to arrive
first. -/
@[simp] theorem write_arrived (pipe : Pipe α) (values : List α) :
    (pipe.write values).arrived = pipe.arrived := by
  unfold write
  split <;> rfl

/-- What is handed over to an open pipe is in flight, behind what was before. -/
theorem write_in_flight {pipe : Pipe α} (opened : pipe.tail = .open) (values : List α) :
    (pipe.write values).inFlight = pipe.inFlight ++ values := by
  simp [write, opened]

/-- The reader does not notice what is handed over before it arrives. -/
@[simp] theorem write_readable (pipe : Pipe α) (values : List α) :
    (pipe.write values).readable = pipe.readable := by
  simp only [readable, write_arrived, write_tail]

/-- Reading takes from the front of what has arrived. -/
@[simp] theorem read_arrived (pipe : Pipe α) (count : Nat) :
    (pipe.read count).arrived = pipe.arrived.drop count := rfl

/-- Reading leaves what is in flight where it is. -/
@[simp] theorem read_in_flight (pipe : Pipe α) (count : Nat) :
    (pipe.read count).inFlight = pipe.inFlight := rfl

/-- Reading does not touch the end of the stream. -/
@[simp] theorem read_tail (pipe : Pipe α) (count : Nat) : (pipe.read count).tail = pipe.tail := rfl

/-- Closing is not noticed before the end arrives, so it does not wake a reader by
itself. -/
@[simp] theorem close_readable (pipe : Pipe α) : pipe.close.readable = pipe.readable := by
  unfold close
  split
  · rename_i opened
    rw [Bool.eq_iff_iff, readable_iff, readable_iff, opened]
    simp
  · rfl

/-- Closing loses nothing that is on its way. The end arrives behind all of it. -/
@[simp] theorem close_contents (pipe : Pipe α) : pipe.close.contents = pipe.contents := by
  unfold close
  split <;> rfl

/-- What is read was the front of what is on its way. This is the law by which the
accounts of a connection are kept. -/
theorem read_contents (pipe : Pipe α) (count : Nat) :
    pipe.arrived.take count ++ (pipe.read count).contents = pipe.contents := by
  simp only [read, contents]
  rw [← List.append_assoc, List.take_append_drop]

/-- Reading makes room for the writer, or leaves as much as there was, where nothing
had arrived. -/
theorem read_room (capacity : Nat) (pipe : Pipe α) (count : Nat) :
    pipe.room capacity ≤ (pipe.read count).room capacity := by
  simp only [room, contents, read, List.length_append, List.length_drop]
  omega

/-- What can be read stays there when more arrives: a reader that need not wait is not
made to wait by the pipe. -/
theorem advance_readable {pipe next : Pipe α} {count : Nat}
    (advanced : pipe.advance count = some next) (waiting : pipe.readable = true) :
    next.readable = true := by
  rw [readable_iff] at waiting ⊢
  rcases advance_cases advanced with ⟨_, _, _, _, ended⟩ | ⟨_, _, arrived, _, tail⟩
  · exact Or.inr ended
  · rw [arrived, tail]
    exact waiting.imp_left fun some_there => by simp [some_there]

end Pipe

end Pipes
