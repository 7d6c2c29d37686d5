import Irono.Net.TimerLoop

/-!
# `Net.TimerClock` — the timer queue, its timerfd and the time (`TimerQueue.cc`)

The timer queue in its loop thread with one clock, that of `Timestamp::now()` and of the timerfd, which
advance together; it is positive and an `int64_t`. `resetTimerfd` takes no time. `handleRead` is called
whenever the timerfd is readable and no `handleRead` is in progress: that covers every loop around the
queue. `armedAt` is the time of the last `resetTimerfd` and is read by no step.
-/

namespace Irono

open Transition

structure TimerClock where
  timers : TimerRun
  timerfd : TimerFd
  clock : Nat
  armedAt : Nat

namespace TimerClock

inductive Fault where
  | timers (f : TimerQueue.Fault)
  /-- the `LOG_FATAL` of `readTimerfd` -/
  | readTimerfd
  deriving DecidableEq, Repr

/-- The constructor, at time `clock`. -/
def start (clock : Nat) : TimerClock :=
  { timers := TimerRun.start, timerfd := ⟨none, 0⟩, clock := clock, armedAt := 0 }

/-- `resetTimerfd` -/
def resetTimerfd (s : TimerClock) (expiration : Timestamp) : TimerClock :=
  { s with
    timerfd := s.timerfd.settime s.clock (howMuchTimeFromNow expiration s.clock)
    armedAt := s.clock }

/-- The timer queue after a step, and the `resetTimerfd` the step called for. -/
def withTimers (s : TimerClock) (timers : TimerRun) : Option Timestamp → TimerClock
  | some expiration => { s with timers := timers }.resetTimerfd expiration
  | none => { s with timers := timers }

/-- The steps: those of the timer queue but for `handleRead`, `handleRead` with the read of the timerfd,
    and time passing. -/
inductive Label where
  | timer (a : TimerRun.Label)
  | handleRead
  | tick (elapsed : Nat)

/-- What the types of the arguments say: an expiration is an `int64_t`, and an interval `> 0.0` has no
    negative whole microseconds. -/
def Typed : TimerRun.Label → Prop
  | .addTimer _ when interval | .queueTimer _ when interval =>
    int64 when = when ∧ (interval.positive = true → 0 ≤ interval.microSeconds)
  | .handleRead _ => False
  | _ => True

instance : (a : TimerRun.Label) → Decidable (Typed a)
  | .addTimer _ _ _ | .queueTimer _ _ _ => inferInstanceAs (Decidable (_ ∧ (_ → _)))
  | .handleRead _ => isFalse id
  | .createElsewhere | .addTimerInLoop _ | .cancelInLoop _ | .run | .finish => isTrue trivial

def step (s : TimerClock) : Label → Result Fault TimerClock
  | .timer a => do
    enabled (Typed a)
    let (timers, rearm) ← (s.timers.act a).mapFault .timers
    return s.withTimers timers rearm
  | .handleRead => do
    enabled s.timers.batch.isNone
    -- `readTimerfd`
    require (0 < s.timerfd.expirations) .readTimerfd
    let (timers, rearm) ← (s.timers.act (.handleRead s.clock)).mapFault .timers
    return { s with timerfd := { s.timerfd with expirations := 0 } }.withTimers timers rearm
  | .tick elapsed => do
    enabled (s.clock + elapsed < 2 ^ 63)
    return { s with clock := s.clock + elapsed, timerfd := s.timerfd.tick (s.clock + elapsed) }

end TimerClock

/-- The timer queue with its timerfd and the time, as a system. -/
def timerClock : System TimerClock TimerClock.Label TimerClock.Fault :=
  ⟨fun s => ∃ clock, 0 < clock ∧ clock < 2 ^ 63 ∧ s = TimerClock.start clock, TimerClock.step⟩

end Irono
