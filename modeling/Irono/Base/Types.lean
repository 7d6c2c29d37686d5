import Mathlib.Tactic

/-!
# `Base.Types` — threads, bytes, addresses and times (`Timestamp.h`)
-/

namespace Irono

/-- A thread; `threadId_` of a loop is one of these. -/
abbrev ThreadId := Nat

/-- A `char` of the wire. -/
abbrev Byte := UInt8

/-- `class Timestamp`: microseconds since the epoch. -/
abbrev Timestamp := Int

/-- `Timestamp::valid` -/
def Timestamp.valid (t : Timestamp) : Prop := 0 < t

instance (t : Timestamp) : Decidable (Timestamp.valid t) := inferInstanceAs (Decidable (0 < t))

/-- The address of an object. -/
abbrev Addr := Nat

def UINTPTR_MAX : Addr := 2 ^ 64 - 1

/-- The value an `int64_t` holds after an operation whose exact result is `x`. -/
def int64 (x : Int) : Int := x.bmod (2 ^ 64)

/-- The value an `int` or `int32_t` holds after a conversion from `x`. -/
def int32 (x : Int) : Int := x.bmod (2 ^ 32)

theorem int32_of_lt {n : Nat} (h : n < 2 ^ 31) : int32 n = n := by
  unfold int32
  apply Int.bmod_eq_of_le
  · omega
  · omega

/-- A size is not made larger. -/
theorem int32_le (n : Nat) : int32 n ≤ n := by
  by_cases h : n < 2 ^ 31
  · exact le_of_eq (int32_of_lt h)
  · have hlt : int32 n < ((2 ^ 32 : Nat) + 1) / 2 := Int.bmod_lt (by decide)
    omega

/-- An interval in seconds: the `double` enters the program only through the test `> 0.0` and through its
    whole microseconds. -/
structure Interval where
  positive : Bool
  microSeconds : Int
  deriving DecidableEq, Repr

/-- `addTime`, with the exact sum: that of the source is an `int64_t`, and the same where it is in its range. -/
def addTime (timestamp : Timestamp) (seconds : Interval) : Timestamp := timestamp + seconds.microSeconds

theorem addTime_eq (t : Timestamp) (seconds : Interval) : addTime t seconds = t + seconds.microSeconds := rfl

end Irono
