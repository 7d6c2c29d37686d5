import Irono.Net.TimerQueue

/-!
# `Net.AddTimer` — `TimerQueue::addTimer` in another thread (`TimerQueue.cc`)

In a thread other than the loop's, `addTimer` hands its `Timer` over with `runInLoop`, and then reads
`timer->sequence()` for the `TimerId` it returns. Here the threads between the two are part of the state,
and the read is a step of its own: anything may happen to the timer before it.

An id that `addTimer` has not returned yet is nobody's, so no `cancelInLoop` has it. `when`, `interval` and
`sequence` of such a thread are history and are read by no step; they say which timer it made.
-/

namespace Irono

open Transition

/-- A call of `addTimer` that has yet to read `timer->sequence()`. -/
structure AddTimer where
  timer : Addr
  when : Timestamp
  interval : Interval
  sequence : Nat
  deriving DecidableEq, Repr

/-- The id it is to return. -/
def AddTimer.id (p : AddTimer) : TimerId := ⟨p.timer, p.sequence⟩

/-- A timer queue with the threads that are inside `addTimer`. -/
structure AddTimers where
  run : TimerRun
  adding : List AddTimer

namespace AddTimers

/-- The steps: those of the queue, of which `queueTimer` is the first part of `addTimer`, and its end. -/
inductive Label where
  | queue (l : TimerRun.Label)
  | returns (p : AddTimer)
  deriving DecidableEq, Repr

/-- The ids that are used have been returned. -/
def Possible (s : AddTimers) : TimerRun.Label → Prop
  | .cancelInLoop timerId => ∀ p ∈ s.adding, timerId ≠ p.id
  | _ => True

instance (s : AddTimers) : (l : TimerRun.Label) → Decidable (s.Possible l)
  | .cancelInLoop timerId => inferInstanceAs (Decidable (∀ p ∈ s.adding, timerId ≠ p.id))
  | .createElsewhere => isTrue trivial
  | .addTimer .. => isTrue trivial
  | .queueTimer .. => isTrue trivial
  | .addTimerInLoop _ => isTrue trivial
  | .handleRead _ => isTrue trivial
  | .run => isTrue trivial
  | .finish => isTrue trivial

/-- The threads inside `addTimer` after a step of the queue. -/
def addingAfter (s : AddTimers) : TimerRun.Label → List AddTimer
  | .queueTimer timer when interval => s.adding ++ [⟨timer, when, interval, s.run.numCreated + 1⟩]
  | _ => s.adding

def step (s : AddTimers) : Label → Result TimerQueue.Fault AddTimers
  | .queue l => do
    enabled (s.Possible l)
    let run ← s.run.step l
    return { run := run, adding := s.addingAfter l }
  | .returns p => do
    enabled (p ∈ s.adding)
    -- `timer->sequence()`: another timer at the address does not help
    require (∃ t ∈ s.run.queue.heap p.timer, t.sequence = p.sequence) .useAfterFree
    return { s with adding := s.adding.erase p }

/-- A queue just constructed. -/
def start : AddTimers := { run := TimerRun.start, adding := [] }

end AddTimers

/-- The timer queue of one loop with the threads that add to it, as a system. -/
def addTimers : System AddTimers AddTimers.Label TimerQueue.Fault :=
  ⟨fun s => s = AddTimers.start, AddTimers.step⟩

end Irono
