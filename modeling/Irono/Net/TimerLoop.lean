import Irono.Net.EventLoop
import Irono.Net.TimerQueue

/-!
# `Net.TimerLoop` — a loop, its timer queue and its timerfd (`EventLoop.cc`, `TimerQueue.cc`)

`TimerLoop` joins the loop of one thread with its timer queue. The timerfd is an object of the kernel:
setting it clears its unread expirations and starts a one-shot timer, time passing expires it, `poll`
reports it while an expiration is unread, and reading it with none unread fails. The other channels'
handlers, the timer callbacks and the other functors are user code: it may add and cancel timers in the
loop thread in any order.
-/

namespace Irono

open Transition

/-- A timerfd, with the times in microseconds of its own clock. -/
structure TimerFd where
  deadline : Option Nat
  expirations : Nat
  deriving DecidableEq, Repr

namespace TimerFd

/-- `timerfd_settime` with a relative one-shot time, at `clock`. -/
def settime (_ : TimerFd) (clock : Nat) (value : Nat) : TimerFd :=
  { deadline := some (clock + value), expirations := 0 }

/-- The clock reaches `clock`. -/
def tick (fd : TimerFd) (clock : Nat) : TimerFd :=
  match fd.deadline with
  | some d => if d ≤ clock then { deadline := none, expirations := fd.expirations + 1 } else fd
  | none => fd

theorem le_expirations_tick (fd : TimerFd) (clock : Nat) :
    fd.expirations ≤ (fd.tick clock).expirations := by
  unfold tick
  split
  · split <;> simp
  · exact Nat.le_refl _

end TimerFd

/-- `howMuchTimeFromNow`, in microseconds; the difference is taken in `int64_t`. -/
def howMuchTimeFromNow (when now : Timestamp) : Nat := (max (int64 (when - now)) 100).toNat

namespace TimerLoop

/-- The channels of the loop, the wakeup channel apart. -/
inductive Handler where
  | timerfd
  | user
  deriving DecidableEq, Repr

/-- What waits in `pendingFunctors_`. -/
inductive Functor where
  | addTimerInLoop (timer : Addr)
  | cancelInLoop (timerId : TimerId)
  | user
  deriving DecidableEq, Repr

inductive Fault where
  | timers (f : TimerQueue.Fault)
  | loop (f : EventLoop.Fault)
  /-- the `LOG_FATAL` of `readTimerfd` -/
  | readTimerfd
  deriving DecidableEq, Repr

end TimerLoop

/-- A loop with its timer queue. -/
structure TimerLoop where
  timers : TimerRun
  loop : EventLoop TimerLoop.Handler TimerLoop.Functor
  timerfd : TimerFd
  /-- the clock of the timerfd -/
  clock : Nat
  /-- `Timestamp::now()` -/
  now : Timestamp
  /-- the loop thread is in a handler or a functor of the user -/
  inTask : Bool

namespace TimerLoop

/-- `EventLoop::EventLoop()` -/
def start : TimerLoop :=
  { timers := TimerRun.start, loop := EventLoop.new, timerfd := ⟨none, 0⟩, clock := 0, now := 0
    inTask := false }

/-- `resetTimerfd` -/
def resetTimerfd (s : TimerLoop) (expiration : Timestamp) : TimerLoop :=
  { s with timerfd := s.timerfd.settime s.clock (howMuchTimeFromNow expiration s.now) }

/-- The timer queue after a step, and the `resetTimerfd` the step called for. -/
def withTimers (s : TimerLoop) (timers : TimerRun) : Option Timestamp → TimerLoop
  | some expiration => { s with timers := timers }.resetTimerfd expiration
  | none => { s with timers := timers }

@[simp] theorem withTimers_timers (s : TimerLoop) (timers : TimerRun) (rearm : Option Timestamp) :
    (s.withTimers timers rearm).timers = timers := by
  cases rearm <;> rfl

@[simp] theorem withTimers_loop (s : TimerLoop) (timers : TimerRun) (rearm : Option Timestamp) :
    (s.withTimers timers rearm).loop = s.loop := by
  cases rearm <;> rfl

/-- A step of the timer queue. -/
def timerStep (s : TimerLoop) (a : TimerRun.Label) : Result Fault TimerLoop := do
  let (timers, rearm) ← (s.timers.act a).mapFault .timers
  return s.withTimers timers rearm

theorem timerStep_eq_ok {s s' : TimerLoop} {a : TimerRun.Label} : s.timerStep a = .ok s' ↔
    ∃ timers rearm, s.timers.act a = .ok (timers, rearm) ∧ s' = s.withTimers timers rearm := by
  simp only [timerStep, bind_eq_ok, Result.mapFault_eq_ok, Prod.exists, pure_eq_ok, Except.ok.injEq,
    eq_comm (a := s')]

/-- `readTimerfd` -/
def readTimerfd (s : TimerLoop) : Result Fault TimerLoop := do
  require (0 < s.timerfd.expirations) .readTimerfd
  return { s with timerfd := { s.timerfd with expirations := 0 } }

/-- `TimerQueue::handleRead` up to its callbacks. -/
def handleRead (s : TimerLoop) : Result Fault TimerLoop := do
  let s ← s.readTimerfd
  s.timerStep (.handleRead s.now)

/-- The code a task of the loop starts with. -/
def startTask (s : TimerLoop) : Option (EventLoop.Task Handler Functor) → Result Fault TimerLoop
  | none => return s
  | some (.handler .timerfd) => s.handleRead
  | some (.functor (.addTimerInLoop timer)) => s.timerStep (.addTimerInLoop timer)
  | some (.functor (.cancelInLoop timerId)) => s.timerStep (.cancelInLoop timerId)
  | some (.handler .user) => return { s with inTask := true }
  | some (.functor .user) => return { s with inTask := true }

/-- User code runs in the loop thread: a timer callback, a user handler or functor, or code outside
    `loop()` and between its iterations. -/
def userCode (s : TimerLoop) : Prop :=
  s.timers.userCode ∧
    (s.timers.batch.isSome ∨ s.inTask ∨ s.loop.pc = .outside ∨ s.loop.pc = .unwinding)

instance (s : TimerLoop) : Decidable s.userCode := inferInstanceAs (Decidable (_ ∧ (_ ∨ _ ∨ _ ∨ _)))

/-- `poll` reports the timerfd only when it is readable, and once at most. -/
def Reportable (s : TimerLoop) : EventLoop.Move Handler → Prop
  | .poll active => (.channel .timerfd ∈ active → 0 < s.timerfd.expirations) ∧
      active.count (.channel .timerfd) ≤ 1
  | _ => True

instance (s : TimerLoop) : (mv : EventLoop.Move Handler) → Decidable (s.Reportable mv)
  | .poll _ => inferInstanceAs (Decidable (_ ∧ _))
  | .enter => isTrue trivial
  | .next => isTrue trivial

/-- The steps: the loop thread's own code and the callbacks of a batch, `addTimer` and `cancel` by user
    code of the loop thread and by other threads, the other functors, and time. -/
inductive Label where
  | loop (mv : EventLoop.Move Handler)
  | run
  | finish
  | ret
  | addTimer (timer : Addr) (when : Timestamp) (interval : Interval)
  | cancel (timerId : TimerId)
  | queueTimer (timer : Addr) (when : Timestamp) (interval : Interval)
  | queueCancel (timerId : TimerId)
  | queueInLoop (isInLoopThread : Bool)
  | quit
  | tick (elapsed : Nat) (now : Timestamp)
  | createElsewhere

def step (s : TimerLoop) : Label → Result Fault TimerLoop
  | .loop mv => do
    enabled (s.timers.batch.isNone ∧ s.inTask = false ∧ s.Reportable mv)
    let (loop, task) ← (s.loop.advance mv).mapFault .loop
    { s with loop := loop }.startTask task
  | .run => s.timerStep .run
  | .finish => s.timerStep .finish
  | .ret => do
    enabled (s.inTask = true)
    return { s with inTask := false }
  | .addTimer timer when interval => do
    enabled s.userCode
    s.timerStep (.addTimer timer when interval)
  | .cancel timerId => do
    enabled s.userCode
    s.timerStep (.cancelInLoop timerId)
  | .queueTimer timer when interval => do
    let s ← s.timerStep (.queueTimer timer when interval)
    return { s with loop := s.loop.queueInLoop false (.addTimerInLoop timer) }
  | .queueCancel timerId => return { s with loop := s.loop.queueInLoop false (.cancelInLoop timerId) }
  | .queueInLoop isInLoopThread => do
    enabled (isInLoopThread → s.userCode)
    return { s with loop := s.loop.queueInLoop isInLoopThread .user }
  | .quit => return { s with loop := { s.loop with quit := true } }
  | .tick elapsed now =>
    return { s with clock := s.clock + elapsed, now := now
                    timerfd := s.timerfd.tick (s.clock + elapsed) }
  | .createElsewhere => s.timerStep .createElsewhere

end TimerLoop

/-- A loop with its timer queue and its timerfd, as a system. -/
def timerLoop : System TimerLoop TimerLoop.Label TimerLoop.Fault :=
  ⟨fun s => s = TimerLoop.start, TimerLoop.step⟩

end Irono
