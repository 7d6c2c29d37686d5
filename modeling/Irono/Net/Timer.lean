import Irono.Base.Types
import Irono.Lib.OrderedSet
import Mathlib.Data.Prod.Lex

/-!
# `Net.Timer` — timers and their ids (`Timer.h`, `Timer.cc`, `TimerId.h`)

A `Timer` is one allocation of the program and is known by its address; an address is free again after
`delete`, and only the sequence number tells two timers of one address apart. The set entries
`(expiration, address)` and `(address, sequence)` are ordered lexicographically, as `std::pair` is.
-/

namespace Irono

/-- `class Timer`, without its callback. -/
structure Timer where
  expiration : Timestamp
  interval : Interval
  sequence : Nat
  deriving DecidableEq, Repr

namespace Timer

/-- `repeat_` -/
def repeat_ (t : Timer) : Bool := t.interval.positive

def restart (t : Timer) (now : Timestamp) : Timer :=
  if t.repeat_ then { t with expiration := addTime now t.interval } else { t with expiration := 0 }

@[simp] theorem restart_sequence (t : Timer) (now : Timestamp) :
    (t.restart now).sequence = t.sequence := by
  unfold restart; split <;> rfl

end Timer

/-- `class TimerId` -/
structure TimerId where
  timer : Addr
  seq : Nat
  deriving DecidableEq, Repr

/-! ## The entries of the two sets -/

/-- `TimerQueue::Entry` -/
abbrev Entry := Timestamp ×ₗ Addr

namespace Entry

def mk (when : Timestamp) (timer : Addr) : Entry := toLex (when, timer)

def time (e : Entry) : Timestamp := (ofLex e).1

def addr (e : Entry) : Addr := (ofLex e).2

@[simp] theorem time_mk (w : Timestamp) (a : Addr) : (mk w a).time = w := rfl

@[simp] theorem addr_mk (w : Timestamp) (a : Addr) : (mk w a).addr = a := rfl

@[simp] theorem mk_time_addr (e : Entry) : mk e.time e.addr = e := rfl

@[simp] theorem mk_inj {w w' : Timestamp} {a a' : Addr} : mk w a = mk w' a' ↔ w = w' ∧ a = a' := by
  simp [mk]

theorem le_iff (e e' : Entry) : e ≤ e' ↔ e.time < e'.time ∨ e.time = e'.time ∧ e.addr ≤ e'.addr :=
  Prod.Lex.le_iff

theorem time_le {e e' : Entry} (h : e ≤ e') : e.time ≤ e'.time := by
  rcases (le_iff _ _).mp h with hlt | ⟨heq, -⟩
  · exact le_of_lt hlt
  · exact le_of_eq heq

/-- The sentry with the greatest address cuts strictly after `now`. -/
theorem now_lt_of_sentry_le {now : Timestamp} {e : Entry} (haddr : e.addr < UINTPTR_MAX)
    (h : mk now UINTPTR_MAX ≤ e) : now < e.time := by
  rcases (le_iff _ _).mp h with hlt | ⟨-, hle⟩
  · exact hlt
  · exact absurd haddr (Nat.not_lt.mpr hle)

end Entry

/-- `TimerQueue::ActiveTimer` -/
abbrev ActiveTimer := Addr ×ₗ Nat

namespace ActiveTimer

def mk (timer : Addr) (sequence : Nat) : ActiveTimer := toLex (timer, sequence)

def addr (x : ActiveTimer) : Addr := (ofLex x).1

def seq (x : ActiveTimer) : Nat := (ofLex x).2

@[simp] theorem addr_mk (a : Addr) (k : Nat) : (mk a k).addr = a := rfl

@[simp] theorem seq_mk (a : Addr) (k : Nat) : (mk a k).seq = k := rfl

@[simp] theorem mk_addr_seq (x : ActiveTimer) : mk x.addr x.seq = x := rfl

@[simp] theorem mk_inj {a a' : Addr} {k k' : Nat} : mk a k = mk a' k' ↔ a = a' ∧ k = k' := by
  simp [mk]

end ActiveTimer

end Irono
