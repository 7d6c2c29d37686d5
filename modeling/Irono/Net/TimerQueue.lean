import Irono.Lib.Transition
import Irono.Net.Timer
import Mathlib.Logic.Function.Basic

/-!
# `Net.TimerQueue` — the timer queue of one loop (`TimerQueue.cc`)

`TimerQueue` is the state the loop thread works on: the two sets of pending timers, the cancel set of a
running batch, and the heap the `Timer` objects live in. Every access to a `Timer` goes through the heap
and faults on a deleted one; every `assert` of the source is a `require`. The operations that set the
timerfd return the time they set it for.

`TimerRun` runs them: timers are created in the loop thread or, through a queued `addTimerInLoop`, by
any other thread; ids are cancelled by any user code of the loop thread, the callbacks of a running
batch included. That `reset` deletes a timer runs no user code here; `TimerReset` has the destructors.
-/

namespace Irono

open Transition

/-- `class TimerQueue`, and the heap its timers live in. -/
structure TimerQueue where
  timers : OrderedSet Entry
  callingExpiredTimers : Bool
  activeTimers : OrderedSet ActiveTimer
  cancelingTimers : OrderedSet ActiveTimer
  /-- the allocated `Timer` objects -/
  heap : Addr → Option Timer
  /-- history: the sequence numbers of the timers deleted so far -/
  deleted : List Nat

namespace TimerQueue

/-- The asserts, and what the heap forbids. -/
inductive Fault where
  | useAfterFree
  | doubleFree
  /-- `timers_.size() == activeTimers_.size()` -/
  | sizes
  /-- `n == 1` in `cancelInLoop` -/
  | eraseTimer
  /-- `n == 1` in `getExpired` -/
  | eraseActive
  /-- `it == timers_.end() || now < it->first` -/
  | lowerBound
  /-- `result.second`, for `timers_` -/
  | insertTimer
  /-- `result.second`, for `activeTimers_` -/
  | insertActive
  deriving DecidableEq, Repr

/-- The constructor. -/
def new : TimerQueue :=
  { timers := .empty, callingExpiredTimers := false, activeTimers := .empty, cancelingTimers := .empty
    heap := fun _ => none, deleted := [] }

/-! ## The heap -/

/-- `*timer` -/
def deref (q : TimerQueue) (timer : Addr) : Result Fault Timer :=
  match q.heap timer with
  | some t => return t
  | none => throw (.fault .useAfterFree)

/-- `delete timer` -/
def delete (q : TimerQueue) (timer : Addr) : Result Fault TimerQueue :=
  match q.heap timer with
  | some t => return { q with heap := Function.update q.heap timer none, deleted := q.deleted ++ [t.sequence] }
  | none => throw (.fault .doubleFree)

/-- The object at an address, written: by `new Timer` and by `restart`. -/
def store (q : TimerQueue) (timer : Addr) (t : Timer) : TimerQueue :=
  { q with heap := Function.update q.heap timer (some t) }

/-! ## The operations -/

def checkSizes (q : TimerQueue) : Result Fault Unit := require (q.timers.size = q.activeTimers.size) .sizes

/-- `earliestChanged` of `insert`. -/
def earliestChanged (q : TimerQueue) (when : Timestamp) : Bool :=
  match q.timers.min? with
  | none => true
  | some e => decide (when < e.time)

def insert (q : TimerQueue) (timer : Addr) : Result Fault (TimerQueue × Bool) := do
  q.checkSizes
  let t ← q.deref timer
  require (¬ .mk t.expiration timer ∈ q.timers) .insertTimer
  require (¬ .mk timer t.sequence ∈ q.activeTimers) .insertActive
  let q' := { q with
    timers := q.timers.insert (.mk t.expiration timer)
    activeTimers := q.activeTimers.insert (.mk timer t.sequence) }
  q'.checkSizes
  return (q', q.earliestChanged t.expiration)

/-- `addTimerInLoop`, with the argument of `resetTimerfd` when it is called. -/
def addTimerInLoop (q : TimerQueue) (timer : Addr) : Result Fault (TimerQueue × Option Timestamp) := do
  let (q, earliestChanged) ← q.insert timer
  if earliestChanged then
    let t ← q.deref timer
    return (q, some t.expiration)
  else return (q, none)

/-- The branch of `cancelInLoop` for a timer found in `activeTimers_`. -/
def eraseAndDelete (q : TimerQueue) (timerId : TimerId) : Result Fault TimerQueue := do
  let t ← q.deref timerId.timer
  require (.mk t.expiration timerId.timer ∈ q.timers) .eraseTimer
  let q ← { q with timers := q.timers.erase (.mk t.expiration timerId.timer) }.delete timerId.timer
  return { q with activeTimers := q.activeTimers.erase (.mk timerId.timer timerId.seq) }

def cancelInLoop (q : TimerQueue) (timerId : TimerId) : Result Fault TimerQueue := do
  q.checkSizes
  let timer := ActiveTimer.mk timerId.timer timerId.seq
  let q ← if timer ∈ q.activeTimers then q.eraseAndDelete timerId
    else if q.callingExpiredTimers then
      pure { q with cancelingTimers := q.cancelingTimers.insert timer }
    else pure q
  q.checkSizes
  return q

/-- The `for` of `getExpired`. -/
def eraseActive (q : TimerQueue) : List Entry → Result Fault TimerQueue
  | [] => return q
  | entry :: rest => do
    let t ← q.deref entry.addr
    require (.mk entry.addr t.sequence ∈ q.activeTimers) .eraseActive
    { q with activeTimers := q.activeTimers.erase (.mk entry.addr t.sequence) }.eraseActive rest

def getExpired (q : TimerQueue) (now : Timestamp) : Result Fault (TimerQueue × List Entry) := do
  q.checkSizes
  let sentry := Entry.mk now UINTPTR_MAX
  let rest := q.timers.dropBelow sentry
  require (∀ e ∈ rest.min?, now < e.time) .lowerBound
  let expired := q.timers.below sentry
  let q ← { q with timers := rest }.eraseActive expired
  q.checkSizes
  return (q, expired)

/-- One iteration of the `for` of `reset`. -/
def resetEntry (q : TimerQueue) (now : Timestamp) (entry : Entry) : Result Fault TimerQueue := do
  let t ← q.deref entry.addr
  if t.repeat_ ∧ ¬ .mk entry.addr t.sequence ∈ q.cancelingTimers then
    let (q, _) ← (q.store entry.addr (t.restart now)).insert entry.addr
    return q
  else q.delete entry.addr

/-- The `for` of `reset`. -/
def resetEntries (q : TimerQueue) (now : Timestamp) : List Entry → Result Fault TimerQueue
  | [] => return q
  | entry :: rest => do
    let q ← q.resetEntry now entry
    q.resetEntries now rest

/-- `reset`, with the argument of `resetTimerfd` when it is called. -/
def reset (q : TimerQueue) (expired : List Entry) (now : Timestamp) :
    Result Fault (TimerQueue × Option Timestamp) := do
  let q ← q.resetEntries now expired
  match q.timers.min? with
  | none => return (q, none)
  | some e => do
    let t ← q.deref e.addr
    return (q, if Timestamp.valid t.expiration then some t.expiration else none)

/-- `handleRead` up to its `for`, once the timerfd is read. -/
def startExpired (q : TimerQueue) (now : Timestamp) : Result Fault (TimerQueue × List Entry) := do
  let (q, expired) ← q.getExpired now
  return ({ q with callingExpiredTimers := true, cancelingTimers := .empty }, expired)

/-- `handleRead` after its callbacks, in one piece: `TimerReset` has the user code that a `delete` can run. -/
def finishExpired (q : TimerQueue) (expired : List Entry) (now : Timestamp) :
    Result Fault (TimerQueue × Option Timestamp) :=
  { q with callingExpiredTimers := false }.reset expired now

end TimerQueue

/-! ## Runs of the timer queue -/

/-- The locals of a running `handleRead`; `next` are the timers whose `run()` is still to come. -/
structure ExpiredBatch where
  now : Timestamp
  expired : List Entry
  next : List Entry

/-- What happens to a timer id. -/
inductive TimerEvent where
  /-- `addTimer` made it -/
  | issued (id : TimerId)
  /-- its `cancelInLoop` was executed -/
  | cancelled (id : TimerId)
  /-- its callback was started -/
  | started (id : TimerId)
  deriving DecidableEq, Repr

/-- A timer queue in use, with its history. -/
structure TimerRun where
  queue : TimerQueue
  /-- `Timer::s_numCreated_` -/
  numCreated : Nat
  /-- the timers whose `addTimerInLoop` waits in the loop's functor queue -/
  queued : List Addr
  batch : Option ExpiredBatch
  history : List TimerEvent

namespace TimerRun

/-- The steps: `addTimer` in the loop thread and in another thread, the queued `addTimerInLoop`,
    `cancelInLoop`, and `handleRead` in three pieces around its callbacks. `s_numCreated_` is static, so
    the timers of other loops take numbers too. -/
inductive Label where
  | createElsewhere
  | addTimer (timer : Addr) (when : Timestamp) (interval : Interval)
  | queueTimer (timer : Addr) (when : Timestamp) (interval : Interval)
  | addTimerInLoop (timer : Addr)
  | cancelInLoop (timerId : TimerId)
  | handleRead (now : Timestamp)
  | run
  | finish
  deriving DecidableEq, Repr

/-- User code can run in the loop thread: no `handleRead` is in progress, or one of its callbacks is. -/
def userCode (s : TimerRun) : Prop := ∀ b ∈ s.batch, b.next.length < b.expired.length

instance (s : TimerRun) : Decidable s.userCode :=
  inferInstanceAs (Decidable (∀ b ∈ s.batch, b.next.length < b.expired.length))

/-- `new Timer` returns the address of an object that does not exist yet. -/
def Fresh (s : TimerRun) (timer : Addr) : Prop := s.queue.heap timer = none ∧ timer < UINTPTR_MAX

instance (s : TimerRun) (timer : Addr) : Decidable (s.Fresh timer) :=
  inferInstanceAs (Decidable (_ ∧ _))

/-- The allocation in `addTimer`. -/
def create (s : TimerRun) (timer : Addr) (when : Timestamp) (interval : Interval) : TimerRun :=
  { s with
    queue := s.queue.store timer ⟨when, interval, s.numCreated + 1⟩
    numCreated := s.numCreated + 1
    history := s.history ++ [.issued ⟨timer, s.numCreated + 1⟩] }

/-- One step, with the argument of `resetTimerfd` when it is called. -/
def act (s : TimerRun) : Label → Result TimerQueue.Fault (TimerRun × Option Timestamp)
  | .createElsewhere => return ({ s with numCreated := s.numCreated + 1 }, none)
  | .addTimer timer when interval => do
    enabled (s.userCode ∧ s.Fresh timer)
    let s := s.create timer when interval
    let (queue, rearm) ← s.queue.addTimerInLoop timer
    -- `TimerId(timer, timer->sequence())`
    let _ ← queue.deref timer
    return ({ s with queue := queue }, rearm)
  | .queueTimer timer when interval => do
    enabled (s.Fresh timer)
    let s := s.create timer when interval
    return ({ s with queued := s.queued ++ [timer] }, none)
  | .addTimerInLoop timer => do
    enabled (s.batch.isNone ∧ timer ∈ s.queued)
    let (queue, rearm) ← s.queue.addTimerInLoop timer
    return ({ s with queue := queue, queued := s.queued.erase timer }, rearm)
  | .cancelInLoop timerId => do
    enabled s.userCode
    let queue ← s.queue.cancelInLoop timerId
    return ({ s with queue := queue, history := s.history ++ [.cancelled timerId] }, none)
  | .handleRead now => do
    enabled s.batch.isNone
    let (queue, expired) ← s.queue.startExpired now
    return ({ s with queue := queue, batch := some ⟨now, expired, expired⟩ }, none)
  | .run =>
    match s.batch with
    | some ⟨now, expired, entry :: rest⟩ => do
      let t ← s.queue.deref entry.addr
      return ({ s with
        batch := some ⟨now, expired, rest⟩
        history := s.history ++ [.started ⟨entry.addr, t.sequence⟩] }, none)
    | _ => throw .blocked
  | .finish =>
    match s.batch with
    | some ⟨now, expired, []⟩ => do
      let (queue, rearm) ← s.queue.finishExpired expired now
      return ({ s with queue := queue, batch := none }, rearm)
    | _ => throw .blocked

def step (s : TimerRun) (a : Label) : Result TimerQueue.Fault TimerRun := do
  let (s', _) ← s.act a
  return s'

/-- A queue just constructed. -/
def start : TimerRun :=
  { queue := TimerQueue.new, numCreated := 0, queued := [], batch := none, history := [] }

end TimerRun

/-- The timer queue of one loop, as a system. -/
def timerQueue : System TimerRun TimerRun.Label TimerQueue.Fault :=
  ⟨fun s => s = TimerRun.start, TimerRun.step⟩

end Irono
