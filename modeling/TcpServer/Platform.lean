import Mathlib.Algebra.Group.Nat.Defs
import Mathlib.Data.List.Basic

/-!
# Bytes, hosts and faults

What the C++ code takes from its platform: bytes, the width of `size_t`, the
byte order of the host, and the ways in which execution leaves the defined
behaviour of the program. A host is a parameter of the codec. The results about
whole connections are for hosts with a 64-bit `size_t` and either byte order.
-/

namespace TcpServer

/-- A byte of a buffer, `std::byte` or `char` of the source. Nothing depends on which
of the two it is. -/
abbrev Byte := UInt8

/-- The order of the bytes of an integer in memory. The source supports these two, and
asks which one it is at compile time. -/
inductive Endian where
  | little
  | big
deriving DecidableEq, Repr

/-- The width of `size_t` in bits and `std::endian::native`. What depends on the host
takes it as a parameter. -/
structure Host where
  sizeBits : Nat
  endian : Endian
deriving DecidableEq, Repr

/-- A host with a 64-bit `size_t`, of either byte order. Most modules speak of such
hosts only. -/
def lp64 (endian : Endian) : Host := ⟨64, endian⟩

/-- The value of a computation in `size_t`, which wraps at the host's width and is no
error. -/
def Host.size (host : Host) (value : Nat) : Nat := value % 2 ^ host.sizeBits

/-- A 64-bit `size_t` represents every frame size, that of the largest payload and its
header included. -/
theorem lp64_wide (endian : Endian) : 2 ^ 32 + 4 ≤ 2 ^ (lp64 endian).sizeBits := by
  change 2 ^ 32 + 4 ≤ 2 ^ 64
  decide

/-- A failed `assert`, or an access outside an object. In either case nothing is known
of the program behind it. -/
inductive Fault where
  | assertFailed
  | outOfBounds
deriving DecidableEq, Repr

/-- `assert(condition)` of a build without `NDEBUG`. In a computation that may fault
it is one of the steps. -/
def check (condition : Bool) : Except Fault Unit :=
  if condition then .ok () else .error .assertFailed

/-- An assert that holds does nothing, so it drops out of a computation. -/
@[simp] theorem check_true : check true = .ok () := rfl

end TcpServer
