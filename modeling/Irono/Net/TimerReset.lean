import Irono.Net.TimerQueue

/-!
# `Net.TimerReset` — the timer queue with `reset` an entry at a time (`TimerQueue.cc`)

`delete it->second` destroys the callback of the timer with what it captured, and the user's destructors can call
`addTimer` and `cancel` there, when `callingExpiredTimers_` is false already. `TimerReset` is `TimerRun` with the
`for` of `reset` taken apart, so that these calls are steps. In the `delete` of `cancelInLoop` they are not possible:
`timers_` is one timer short of `activeTimers_`, and the first assert fails.
-/

namespace Irono

open Transition

/-- A timer queue in use; a batch whose callbacks are over has its entries in `resetting`. -/
structure TimerReset where
  run : TimerRun
  /-- the running `reset`: its `now`, and the entries that the `for` has not left -/
  resetting : Option (Timestamp × List Entry)

namespace TimerReset

inductive Label where
  /-- a step of the timer queue, but not in one piece from the `for` of `handleRead` on -/
  | timer (a : TimerRun.Label)
  /-- `handleRead` after its callbacks, up to the `for` of `reset` -/
  | reset
  /-- an iteration of this -/
  | resetEntry
  /-- what comes after it -/
  | resetTimerfd

/-- The timer of an entry is put back by `reset`. -/
def Restarts (q : TimerQueue) (entry : Entry) : Prop :=
  ∃ t ∈ q.heap entry.addr, t.repeat_ = true ∧ ¬ .mk entry.addr t.sequence ∈ q.cancelingTimers

instance (q : TimerQueue) (entry : Entry) : Decidable (Restarts q entry) :=
  inferInstanceAs (Decidable (∃ _ ∈ _, _ ∧ _))

/-- User code can run in the loop thread, as far as `reset` goes: none is running, or it is in a `delete`. -/
def userCode (s : TimerReset) : Prop := ∀ r ∈ s.resetting, ∃ entry ∈ r.2.head?, ¬ Restarts s.run.queue entry

instance (s : TimerReset) : Decidable s.userCode :=
  inferInstanceAs (Decidable (∀ r ∈ s.resetting, ∃ entry ∈ r.2.head?, _))

/-- What can happen besides the code of `reset`. -/
def Allows (s : TimerReset) : TimerRun.Label → Prop
  | .createElsewhere | .queueTimer .. => True
  | .addTimer .. | .cancelInLoop _ => s.userCode
  | .addTimerInLoop _ | .handleRead _ | .run => s.resetting.isNone
  | .finish => False

instance (s : TimerReset) : (a : TimerRun.Label) → Decidable (s.Allows a)
  | .createElsewhere | .queueTimer .. => isTrue trivial
  | .addTimer .. | .cancelInLoop _ => inferInstanceAs (Decidable s.userCode)
  | .addTimerInLoop _ | .handleRead _ | .run => inferInstanceAs (Decidable (s.resetting.isNone = true))
  | .finish => isFalse id

def step (s : TimerReset) : Label → Result TimerQueue.Fault TimerReset
  | .timer a => do
    enabled (s.Allows a)
    let run ← s.run.step a
    return { s with run := run }
  | .reset =>
    match s.run.batch with
    | some ⟨now, expired, []⟩ =>
      let queue := { s.run.queue with callingExpiredTimers := false }
      return ⟨{ s.run with queue := queue, batch := none }, some (now, expired)⟩
    | _ => throw .blocked
  | .resetEntry =>
    match s.resetting with
    | some (now, entry :: rest) => do
      let queue ← s.run.queue.resetEntry now entry
      return ⟨{ s.run with queue := queue }, some (now, rest)⟩
    | _ => throw .blocked
  | .resetTimerfd =>
    match s.resetting with
    | some (now, []) => do
      -- the `for` is over
      let (queue, _) ← s.run.queue.reset [] now
      return ⟨{ s.run with queue := queue }, none⟩
    | _ => throw .blocked

end TimerReset

/-- The timer queue with the destructors of its callbacks, as a system. -/
def timerReset : System TimerReset TimerReset.Label TimerQueue.Fault :=
  ⟨fun s => s = ⟨TimerRun.start, none⟩, TimerReset.step⟩

end Irono
